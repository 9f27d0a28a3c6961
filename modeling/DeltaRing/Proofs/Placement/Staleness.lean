import DeltaRing.Proofs.Placement.Keeping

/-!
How a plan ages.

A distributor compares every view with the view that it last planned for, never with one that it
passed over. So however many views have been passed over since, nothing but sizes has changed
between the view that was planned for and the last one, and no size by more than the threshold: what
adds up is seen. Whatever else changes in a view, a new plan is made for it at once.
-/

namespace DeltaRing

open Placement

namespace ClusterView

variable {u v : ClusterView} {t : Float} {info : ReplicaInfo}

/-- The views differ in sizes only, and no size of `v` has drifted from the one in `u`. -/
structure SameButSizes (u v : ClusterView) (threshold : Float) : Prop where
  nodes : ringOf u.nodes = ringOf v.nodes
  holders : u.holders = v.holders
  replicas : (u.known.values.map ReplicaInfo.replica).Perm (v.replicas.map ReplicaInfo.replica)
  each : ∀ old ∈ u.known.values, ∀ new ∈ v.replicas, old.replica = new.replica →
    old.requestedReplicas = new.requestedReplicas ∧
      Distributor.drifts threshold old.size new.size = false

lemma mem_values_known : info ∈ v.known.values ↔ v.known.get? info.replica = some info := by
  rw [SortedMap.mem_values]
  refine ⟨fun ⟨r, hr⟩ => ?_, fun h => ⟨_, h⟩⟩
  rwa [replica_of_known hr]

lemma map_replica_values_known (v : ClusterView) :
    v.known.values.map ReplicaInfo.replica = v.known.keys := by
  rw [SortedMap.values, SortedMap.keys, List.map_map]
  exact List.map_congr_left fun _ he => replica_of_known (SortedMap.mem_entries_iff.mp he)

lemma values_known_perm (hv : (v.replicas.map ReplicaInfo.replica).Nodup) :
    v.known.values.Perm v.replicas := by
  have hone : v.Unambiguous := fun info hinfo info' hinfo' =>
    List.inj_on_of_nodup_map hv hinfo hinfo'
  have hvalues : v.known.values.Nodup :=
    .of_map ReplicaInfo.replica (map_replica_values_known v ▸ v.known.nodup_keys)
  refine (List.perm_ext_iff_of_nodup hvalues (hv.of_map _)).mpr fun info => ?_
  rw [mem_values_known, get?_known hone, and_iff_left rfl]

lemma SameButSizes.refl (hv : (v.replicas.map ReplicaInfo.replica).Nodup) (ht : ¬t < 0) :
    v.SameButSizes v t where
  nodes := rfl
  holders := rfl
  replicas := (values_known_perm hv).map _
  each old hold new hnew hid := by
    obtain rfl := List.inj_on_of_nodup_map hv ((values_known_perm hv).subset hold) hnew hid
    exact ⟨rfl, Distributor.drifts_self ht old.size⟩

end ClusterView

namespace Distributor

variable {d : Distributor} {u v : ClusterView} {past : List ClusterView} {t : Float}

/-- The test for a new plan finds out whether anything but sizes differs. -/
lemma isMeaningful_eq_false_iff (hd : d.PlannedFrom u)
    (hv : (v.replicas.map ReplicaInfo.replica).Nodup) :
    d.isMeaningful (ringOf v.nodes) v.known v.holders = false ↔ u.SameButSizes v d.threshold := by
  have hvalues := ClusterView.values_known_perm hv
  constructor
  · intro h
    have hkept := keptUpTo_of_not_isMeaningful hd h
    have hunchanged := List.any_eq_false.mp (Bool.or_eq_false_iff.mp h).2
    refine ⟨hkept.nodes, hkept.holders, ?_, fun old hold new hnew hid => ?_⟩
    · refine List.Perm.trans ?_ (hvalues.map _)
      rw [ClusterView.map_replica_values_known, ClusterView.map_replica_values_known]
      refine (List.perm_ext_iff_of_nodup u.known.nodup_keys v.known.nodup_keys).mpr fun r => ?_
      rw [SortedMap.mem_keys, SortedMap.mem_keys, hkept.known]
    · have hnone := hunchanged new (hvalues.mem_iff.mpr hnew)
      rw [replicaChanged, hd.replicas, ← hid, ClusterView.mem_values_known.mp hold] at hnone
      simpa using hnone
  · intro h
    have hsize : u.known.size = v.known.size := by
      have hlength := (h.replicas.trans (hvalues.map _).symm).length_eq
      simpa [SortedMap.values, SortedMap.size] using hlength
    simp only [isMeaningful, Bool.or_eq_false_iff, decide_eq_false_iff_not, not_not, hd.nodes,
      hd.holders, hd.replicas]
    refine ⟨⟨⟨h.nodes, h.holders⟩, hsize⟩, List.any_eq_false.mpr fun new hnew => ?_⟩
    have hlisted := hvalues.mem_iff.mp hnew
    obtain ⟨old, hold, hid⟩ := List.mem_map.mp
      (h.replicas.mem_iff.mpr (List.mem_map_of_mem (f := ReplicaInfo.replica) hlisted))
    rw [replicaChanged, hd.replicas, ← hid, ClusterView.mem_values_known.mp hold]
    simpa using h.each old hold new hlisted hid

lemma update_eq_or (d : Distributor) (v : ClusterView) :
    (d.update v).2 = true ∧ (d.update v).1.PlannedFrom v ∧ (d.update v).1.epoch = d.epoch + 1 ∨
      d.update v = (d, false) ∧ 0 < d.epoch ∧
        d.isMeaningful (ringOf v.nodes) v.known v.holders = false := by
  rw [update, ← ClusterView.known]
  split
  · rename_i hkept
    exact .inr ⟨rfl, by simpa using hkept⟩
  · exact .inl ⟨rfl, ⟨rfl, rfl, rfl, rfl⟩, rfl⟩

/-- A view that differs in sizes only from the one that was planned for is passed over. -/
lemma update_of_sameButSizes (hd : d.PlannedFrom u) (hpos : 0 < d.epoch)
    (hv : (v.replicas.map ReplicaInfo.replica).Nodup) (h : u.SameButSizes v d.threshold) :
    d.update v = (d, false) := by
  have hkept := (isMeaningful_eq_false_iff hd hv).mpr h
  rw [update, ← ClusterView.known, hkept, if_pos (by simpa using hpos)]

lemma epoch_feed_pos {strategy : Distribution} (hpast : past ≠ []) :
    0 < ((ofThreshold strategy t).feed past).epoch := by
  obtain ⟨past, v, rfl⟩ := (List.eq_nil_or_concat' past).resolve_left hpast
  rw [feed_append]
  exact (update_cases (plannedFrom_feed strategy t past)).1

/-- **A plan ages in sizes only.** A view is passed over exactly if it differs in sizes only, none
of which has drifted, from the view that the plan was made for; then nothing changes. Otherwise it
is planned for, and the epoch is raised. So after any views the plan is the strategy's for inputs
that differ from the last view in sizes only, none of which has drifted. -/
theorem plan_ages_in_sizes_only (strategy : Distribution) (t : Float) (past : List ClusterView)
    (v : ClusterView) (hids : (v.replicas.map ReplicaInfo.replica).Nodup) :
    let before := (ofThreshold strategy t).feed past
    let after := (ofThreshold strategy t).feed (past ++ [v])
    let planned := (before.update v).2
    (planned = false ↔ ∃ u ∈ past, before.PlannedFrom u ∧ u.SameButSizes v t) ∧
    (planned = true → after.PlannedFrom v ∧ after.epoch = before.epoch + 1) ∧
    (planned = false → after = before) ∧
    (∃ u ∈ past ++ [v], after.plan = strategy u.known.values (ringOf v.nodes) v.holders ∧
      (u.SameButSizes v t ∨ t < 0 ∧ u = v)) ∧
    after.nodes = ringOf v.nodes := by
  intro before after planned
  have hthreshold : before.threshold = t := feed_threshold
  have hstrategy : before.strategy = strategy := feed_strategy
  have hafter : after = (before.update v).1 := feed_append past
  rcases update_eq_or before v with ⟨hplanned, hfrom, hepoch⟩ | ⟨hkept, hpos, hsame⟩
  · have hplan : after.plan = strategy v.known.values (ringOf v.nodes) v.holders := by
      rw [hafter, hfrom.plan, update_strategy, hstrategy, ClusterView.plan]
    refine ⟨iff_of_false (by simp [planned, hplanned]) ?_, fun _ => hafter ▸ ⟨hfrom, hepoch⟩,
      fun h => absurd (hplanned.symm.trans h) (by decide), ⟨v, by simp, hplan, ?_⟩,
      hafter ▸ hfrom.nodes⟩
    · rintro ⟨u, hu, hbefore, hsame⟩
      have hpos : 0 < before.epoch := epoch_feed_pos (List.ne_nil_of_mem hu)
      rw [update_of_sameButSizes hbefore hpos hids (hthreshold ▸ hsame)] at hplanned
      cases hplanned
    · by_cases ht : t < 0
      · exact .inr ⟨ht, rfl⟩
      · exact .inl (.refl hids ht)
  · obtain ⟨u, hu, hbefore⟩ := plannedFrom_feed strategy t past hpos
    have hsizes : u.SameButSizes v t :=
      hthreshold ▸ (isMeaningful_eq_false_iff hbefore hids).mp hsame
    have hback : after = before := by rw [hafter, hkept]
    have hplan : after.plan = strategy u.known.values (ringOf v.nodes) v.holders := by
      rw [hback, hbefore.plan, hstrategy, ClusterView.plan, hsizes.nodes, hsizes.holders]
    refine ⟨iff_of_true (by simp [planned, hkept]) ⟨u, hu, hbefore, hsizes⟩,
      fun h => by simp [planned, hkept] at h, fun _ => hback,
      ⟨u, List.mem_append_left _ hu, hplan, .inl hsizes⟩, ?_⟩
    rw [hback, hbefore.nodes, hsizes.nodes]

/-! ### A size that grows a little at a time -/

/-- From ten to twelve is passed over. From there to thirteen is less, but it comes on top. -/
theorem small_steps_add_up :
    let before := (ofThreshold ringDistribution 0.25).feed [grown 10, grown 12]
    let after := (ofThreshold ringDistribution 0.25).feed [grown 10, grown 12, grown 13]
    ((grown 13).replicas.map ReplicaInfo.replica).Nodup ∧
      before = (ofThreshold ringDistribution 0.25).feed [grown 10] ∧
      drifts 0.25 12 13 = false ∧ (before.update (grown 13)).2 = true ∧
      after.PlannedFrom (grown 13) ∧ after.epoch = 2 := by
  intro before after
  have hids : ∀ size, ((grown size).replicas.map ReplicaInfo.replica).Nodup := by simp [grown]
  have hvalues := ClusterView.values_known_perm (hids 10)
  have hfirst : ((ofThreshold ringDistribution 0.25).feed [grown 10]).PlannedFrom (grown 10) :=
    ⟨rfl, rfl, rfl, rfl⟩
  have hclose : (grown 10).SameButSizes (grown 12) 0.25 := by
    refine ⟨rfl, rfl, hvalues.map _, fun old hold => ?_⟩
    replace hold := hvalues.mem_iff.mp hold
    revert old
    decide +kernel
  have hpassed := update_of_sameButSizes hfirst Nat.one_pos (hids 12) hclose
  have hbefore : before = (ofThreshold ringDistribution 0.25).feed [grown 10] := by
    have hlast : before = (((ofThreshold ringDistribution 0.25).feed [grown 10]).update
        (grown 12)).1 := feed_append [grown 10]
    rw [hlast, hpassed]
  obtain ⟨hkept, hplanned, -⟩ :=
    plan_ages_in_sizes_only ringDistribution 0.25 [grown 10, grown 12] (grown 13) (hids 13)
  have hnew : (before.update (grown 13)).2 = true := by
    refine (Bool.not_eq_false _).mp fun h => ?_
    obtain ⟨u, -, hfrom, hsame⟩ := hkept.mp h
    have hknown : u.known = (grown 10).known :=
      hfrom.replicas.symm.trans ((congrArg replicas hbefore).trans hfirst.replicas)
    have hlisted : (⟨⟨"t", 1⟩, 10, 1⟩ : ReplicaInfo) ∈ u.known.values :=
      hknown ▸ hvalues.mem_iff.mpr (by decide)
    have hdrifted := (hsame.each _ hlisted ⟨⟨"t", 1⟩, 13, 1⟩ (by decide) rfl).2
    exact absurd hdrifted (by decide +kernel)
  obtain ⟨hfrom, hepoch⟩ := hplanned hnew
  refine ⟨hids 13, hbefore, by decide +kernel, hnew, hfrom, hepoch.trans ?_⟩
  exact congrArg (epoch · + 1) hbefore

end Distributor

end DeltaRing
