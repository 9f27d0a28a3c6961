import DeltaRing.Proofs.Placement.Windows

/-!
What placement keeps.

A plan is kept when the same view comes again, because a size that has not changed has not drifted.
And whoever holds a copy of a replica stays one of its readers as long as it is a member, wherever
the writes to the replica go, while nobody but members reads it.
-/

namespace DeltaRing

/-! ### Sizes that have not changed -/

section

open Float.Model (UnpackedFloat)

/-- A zero of either sign, or no number. -/
inductive Vanishes (x : Float) : Prop
  | notANumber (h : x.toModel.unpack = .notANumber)
  | zero (sign : UnpackedFloat.Sign) (h : x.toModel.unpack = .zero sign)

variable {t x y : Float}

lemma vanishes_pack {u : UnpackedFloat} (h : u = .notANumber ∨ ∃ sign, u = .zero sign) :
    Vanishes ⟨.pack u⟩ := by
  obtain rfl | ⟨sign, rfl⟩ := h
  · exact .notANumber rfl
  · exact .zero sign (by cases sign <;> rfl)

lemma vanishes_sub_self (x : Float) : Vanishes (x - x) := by
  refine vanishes_pack ?_
  cases x.toModel.unpack with
  | notANumber => exact .inl rfl
  | infinity sign => cases sign <;> exact .inl rfl
  | zero sign => cases sign <;> exact .inr ⟨_, rfl⟩
  | finite sign mantissa exponent hpos =>
    have hnormalize (m : Int) : UnpackedFloat.normalize .binary64 (m - m) (min exponent exponent)
        .positive = .zero .positive := by
      rw [Int.sub_self]
      rfl
    exact .inr ⟨.positive, hnormalize _⟩

lemma Vanishes.abs (h : Vanishes x) : Vanishes x.abs := by
  refine vanishes_pack ?_
  cases h with
  | notANumber h =>
    rw [h]
    exact .inl rfl
  | zero sign h =>
    rw [h]
    exact .inr ⟨_, rfl⟩

lemma Vanishes.div (h : Vanishes x) (y : Float) : Vanishes (x / y) := by
  refine vanishes_pack ?_
  cases h with
  | notANumber h =>
    rw [h]
    exact .inl rfl
  | zero sign h =>
    rw [h]
    cases y.toModel.unpack with
    | notANumber | zero => exact .inl rfl
    | infinity | finite => exact .inr ⟨_, rfl⟩

lemma float_lt_iff : x < y ↔ x.toModel.unpack.compare y.toModel.unpack = some .lt := by
  change decide (x.toModel < y.toModel) = true ↔ _
  rw [decide_eq_true_iff]
  exact beq_iff_eq

lemma Vanishes.not_lt (h : Vanishes x) (ht : ¬t < 0) : ¬t < x := by
  have hzero : (0 : Float).toModel.unpack = .zero .positive := rfl
  rw [float_lt_iff] at ht ⊢
  rw [hzero] at ht
  cases h with
  | notANumber h =>
    rw [h]
    cases t.toModel.unpack <;> nofun
  | zero sign h =>
    rw [h]
    refine fun hlt => ht (Eq.trans ?_ hlt)
    cases t.toModel.unpack with
    | notANumber | zero => rfl
    | infinity sign' => cases sign' <;> rfl
    | finite sign' => cases sign' <;> rfl

lemma Distributor.drifts_self (ht : ¬t < 0) (size : Nat) : drifts t size size = false :=
  decide_eq_false (((vanishes_sub_self _).abs.div _).not_lt ht)

end

/-! ### A view that comes again -/

namespace Distributor

variable {d : Distributor} {v : ClusterView}

/-- What a plan was just computed from does not ask for another. -/
lemma PlannedFrom.not_isMeaningful (h : d.PlannedFrom v) (ht : ¬d.threshold < 0) :
    d.isMeaningful (Placement.ringOf v.nodes) v.known v.holders = false := by
  simp only [isMeaningful, Bool.or_eq_false_iff, decide_eq_false_iff_not, not_not]
  refine ⟨⟨⟨h.nodes, h.holders⟩, by rw [h.replicas]⟩, List.any_eq_false.mpr fun info hinfo => ?_⟩
  obtain ⟨r, hr⟩ := SortedMap.mem_values.mp hinfo
  rw [replicaChanged, ClusterView.replica_of_known hr, h.replicas, hr]
  simp [drifts_self ht]

/-- **Taking a view again changes nothing.** -/
theorem update_update (ht : ¬d.threshold < 0) :
    (d.update v).1.update v = ((d.update v).1, false) := by
  by_cases hkept :
      (0 < d.epoch && !d.isMeaningful (Placement.ringOf v.nodes) v.known v.holders) = true
  · have hsame : d.update v = (d, false) := by
      rw [update, ← ClusterView.known, if_pos hkept]
    rw [hsame, hsame]
  · set d' := (d.update v).1 with hd'
    have hplanned : d'.PlannedFrom v := by
      rw [hd', update, ← ClusterView.known, if_neg hkept]
      exact ⟨rfl, rfl, rfl, rfl⟩
    have hepoch : 0 < d'.epoch := by
      rw [hd', update, ← ClusterView.known, if_neg hkept]
      exact Nat.succ_pos _
    have hmatters := hplanned.not_isMeaningful (by rwa [hd', update_threshold])
    rw [update, ← ClusterView.known, hmatters, if_pos (by simpa using hepoch)]

end Distributor

/-! ### A replica on its own -/

namespace Placement

variable {ring nodes : List NodeInfo} {holders : Holders} {infos : List ReplicaInfo} {k : Nat}
  {info : ReplicaInfo} {n : NodeInfo} {r : ReplicaId} {p : Placement}

/-- Nobody reads a replica who is not on the ring. -/
lemma mem_ring_of_mem_read (h : n ∈ (onRing ring holders k info).read) : n ∈ ring := by
  rcases mem_read_ofWindow.mp h with hwrite | ⟨hn, -⟩
  · obtain ⟨i, -, hi⟩ := List.mem_filterMap.mp hwrite
    exact List.mem_of_getElem? hi
  · exact hn

/-- Whoever is on the ring and holds a copy reads the replica, as a writer or beside them. -/
lemma exists_mem_read (hn : n ∈ ring)
    (hholds : (holders.getD info.replica .empty).contains n.id = true) :
    ∃ w ∈ (onRing ring holders k info).read, w.id = n.id := by
  by_cases hwrites : ∃ w ∈ window ring (windowStart ring.length k)
      (min (max info.requestedReplicas 1) ring.length), w.id = n.id
  · obtain ⟨w, hw, hid⟩ := hwrites
    exact ⟨w, mem_read_ofWindow.mpr (.inl hw), hid⟩
  · exact ⟨n, mem_read_ofWindow.mpr (.inr ⟨hn, hholds, fun w hw hid => hwrites ⟨w, hw, hid⟩⟩), rfl⟩

lemma exists_onRing (h : (ringDistribution infos nodes holders).get? r = some p) :
    ∃ k info, info.replica = r ∧ p = onRing (ringOf nodes) holders k info := by
  obtain ⟨⟨info, k⟩, -, heq⟩ := List.mem_map.mp (SortedMap.mem_of_get?_ofList h)
  obtain ⟨hr, hp⟩ := Prod.mk.inj heq
  exact ⟨k, info, hr, hp.symm⟩

end Placement

namespace Distributor

open Placement

variable {t : Float} {past : List ClusterView} {v : ClusterView} {r : ReplicaId} {n : NodeInfo}

/-- The placement of a replica is one on the ring of the last view, with its holders. -/
lemma exists_placement_feed (t : Float) (past : List ClusterView) (v : ClusterView)
    (r : ReplicaId) :
    let d := (ofThreshold ringDistribution t).feed (past ++ [v])
    d.plan.get? r = none ∨ ∃ k info, info.replica = r ∧
      d.placement r = onRing (ringOf (ringOf v.nodes)) v.holders k info := by
  intro d
  obtain ⟨u, -, hkept, hplan, -⟩ := planned_from_kept_view ringDistribution t past v
  cases hget : d.plan.get? r with
  | none => exact .inl rfl
  | some p =>
    have hu : (u.plan ringDistribution).get? r = some p := hplan ▸ hget
    obtain ⟨k, info, hr, rfl⟩ := exists_onRing hu
    refine .inr ⟨k, info, hr, ?_⟩
    rw [placement, SortedMap.getD, hget, Option.getD_some, hkept.nodes, hkept.holders]

/-- Whoever holds a copy of a replica reads it, if both are in the last view. -/
lemma isReadReplica_of_holds (hn : n ∈ v.nodes)
    (hholds : (v.holders.getD r .empty).contains n.id = true)
    (hr : ∃ info ∈ v.replicas, info.replica = r) :
    let d := (ofThreshold ringDistribution t).feed (past ++ [v])
    d.isReadReplica r n.id = true ∧ r ∈ d.heldBy n.id := by
  intro d
  have hplaced : d.plan.contains r = true := (contains_plan_feed t past v r).mpr hr
  have hreads : d.isReadReplica r n.id = true := by
    rcases exists_placement_feed t past v r with hnone | ⟨k, info, rfl, heq⟩
    · rw [SortedMap.contains, hnone] at hplaced
      cases hplaced
    · -- the ring is made a ring once more when the plan is computed
      obtain ⟨w, hw, hid⟩ := Selection.exists_mem_distinct (Selection.mem_sort.mpr hn)
      obtain ⟨w', hw', hid'⟩ := Selection.exists_mem_distinct (Selection.mem_sort.mpr hw)
      rw [← hid, ← hid'] at hholds
      obtain ⟨reader, hreader, hsame⟩ := exists_mem_read (k := k) hw' hholds
      rw [isReadReplica, readReplicas, heq]
      exact List.any_eq_true.mpr ⟨reader, hreader, decide_eq_true (by rw [hsame, hid', hid])⟩
  exact ⟨hreads, List.mem_filter.mpr ⟨SortedMap.mem_keys.mpr hplaced, hreads⟩⟩

lemma exists_replica_of_mem_readReplicas (past : List ClusterView)
    (h : n ∈ ((ofThreshold ringDistribution t).feed (past ++ [v])).readReplicas r) :
    ∃ info ∈ v.replicas, info.replica = r := by
  rw [← contains_plan_feed t past, SortedMap.contains]
  cases hget : ((ofThreshold ringDistribution t).feed (past ++ [v])).plan.get? r with
  | some p => rfl
  | none =>
    rw [readReplicas, placement, SortedMap.getD, hget] at h
    cases h

lemma mem_nodes_of_mem_readReplicas (past : List ClusterView)
    (h : n ∈ ((ofThreshold ringDistribution t).feed (past ++ [v])).readReplicas r) :
    n ∈ v.nodes := by
  rcases exists_placement_feed t past v r with hnone | ⟨k, info, -, heq⟩
  · rw [readReplicas, placement, SortedMap.getD, hnone] at h
    cases h
  · rw [readReplicas, heq] at h
    exact (mem_ringOf.mp (mem_ringOf.mp (mem_ring_of_mem_read h)).1).1

end Distributor

end DeltaRing
