import DeltaRing.Config
import DeltaRing.Distributor
import DeltaRing.Proofs.Collections.SortedMap
import DeltaRing.Proofs.Placement.Ring
import Mathlib.Data.List.Permutation

/-!
When two nodes compute one placement.

A distributor keeps its plan while sizes drift by less than a threshold. So its plan is the
strategy's for a view that it was once fed, and the last view differs from that one in sizes only,
none of which has drifted. On the ring a size matters only for the order in which the replicas are
taken. Hence distributors whose last views are the same agree on every placement as long as the
views that they planned from rank the replicas alike, and otherwise they may not.
-/

namespace DeltaRing

namespace ClusterView

structure SameAs (v v' : ClusterView) : Prop where
  nodes : ∀ n, n ∈ v.nodes ↔ n ∈ v'.nodes
  replicas : ∀ info, info ∈ v.replicas ↔ info ∈ v'.replicas
  holders : v.holders = v'.holders

def Unambiguous (v : ClusterView) : Prop :=
  ∀ info ∈ v.replicas, ∀ info' ∈ v.replicas, info.replica = info'.replica → info = info'

def known (v : ClusterView) : SortedMap ReplicaId ReplicaInfo :=
  .ofList (v.replicas.map fun info => (info.replica, info))

def ranking (v : ClusterView) : List ReplicaId :=
  (Placement.order v.known.values).map ReplicaInfo.replica

def plan (v : ClusterView) (strategy : Distribution) : Plan :=
  strategy v.known.values (Placement.ringOf v.nodes) v.holders

/-- From `u` to `v` nothing but sizes has changed, and no size has drifted. -/
structure KeptUpTo (u v : ClusterView) (threshold : Float) : Prop where
  nodes : Placement.ringOf u.nodes = Placement.ringOf v.nodes
  holders : u.holders = v.holders
  known : ∀ r, (u.known.get? r).isSome = (v.known.get? r).isSome
  requested : ∀ r old new, u.known.get? r = some old → v.known.get? r = some new →
    old.requestedReplicas = new.requestedReplicas
  sizes : ∀ r old new, u.known.get? r = some old → v.known.get? r = some new →
    old.size = new.size ∨ Distributor.drifts threshold old.size new.size = false

end ClusterView

namespace Distributor

def feed (d : Distributor) (views : List ClusterView) : Distributor :=
  views.foldl (fun d v => (d.update v).1) d

structure PlannedFrom (d : Distributor) (u : ClusterView) : Prop where
  nodes : d.nodes = Placement.ringOf u.nodes
  replicas : d.replicas = u.known
  holders : d.holders = u.holders
  plan : d.plan = u.plan d.strategy

structure AgreesWith (d d' : Distributor) : Prop where
  placement : ∀ r, d.placement r = d'.placement r
  writeReplicas : ∀ r, d.writeReplicas r = d'.writeReplicas r
  readReplicas : ∀ r, d.readReplicas r = d'.readReplicas r
  heldBy : ∀ n, d.heldBy n = d'.heldBy n

end Distributor

open Placement

/-! ### The plan on the ring -/

lemma Placement.order_perm (infos : List ReplicaInfo) : (order infos).Perm infos :=
  List.mergeSort_perm _ _

lemma Placement.mem_order {infos : List ReplicaInfo} {info : ReplicaInfo} :
    info ∈ order infos ↔ info ∈ infos :=
  (order_perm infos).mem_iff

lemma ringDistribution_congr {infos infos' : List ReplicaInfo} {nodes : List NodeInfo}
    {holders : Holders} {requested : ReplicaId → Nat}
    (h : ∀ info ∈ infos, info.requestedReplicas = requested info.replica)
    (h' : ∀ info ∈ infos', info.requestedReplicas = requested info.replica)
    (horder : (order infos).map ReplicaInfo.replica = (order infos').map ReplicaInfo.replica) :
    ringDistribution infos nodes holders = ringDistribution infos' nodes holders := by
  -- a placement in terms of a replica's id and of how many replicas it asks for
  let placed (p : ReplicaId × Nat) : ReplicaId × Placement :=
    (p.1, onRing (ringOf nodes) holders p.2 ⟨p.1, 0, requested p.1⟩)
  have hplan : ∀ l : List ReplicaInfo,
      (∀ info ∈ l, info.requestedReplicas = requested info.replica) →
      ringDistribution l nodes holders =
        .ofList (((order l).map ReplicaInfo.replica).zipIdx.map placed) := by
    intro l hl
    rw [ringDistribution, List.zipIdx_map, List.map_map]
    refine congrArg SortedMap.ofList (List.map_congr_left fun ⟨info, k⟩ hmem => ?_)
    have hinfo : info ∈ l := mem_order.mp (List.fst_mem_of_mem_zipIdx hmem)
    simp [placed, onRing, hl info hinfo]
  rw [hplan infos h, hplan infos' h', horder]

lemma contains_ringDistribution {infos : List ReplicaInfo} {nodes : List NodeInfo}
    {holders : Holders} {r : ReplicaId} :
    (ringDistribution infos nodes holders).contains r = true ↔
      ∃ info ∈ infos, info.replica = r := by
  rw [SortedMap.contains, ringDistribution, SortedMap.isSome_get?_ofList]
  simp only [List.mem_map, Prod.exists, Prod.mk.injEq]
  constructor
  · rintro ⟨_, info, k, hmem, hr, -⟩
    exact ⟨info, mem_order.mp (List.fst_mem_of_mem_zipIdx hmem), hr⟩
  · rintro ⟨info, hmem, hr⟩
    obtain ⟨k, hk⟩ := List.getElem?_of_mem (mem_order.mpr hmem)
    exact ⟨_, info, k, List.mem_zipIdx_iff_getElem?.mpr hk, hr, rfl⟩

/-! ### Views -/

namespace ClusterView

variable {u u' v v' : ClusterView} {t t' : Float} {r : ReplicaId} {info : ReplicaInfo}

lemma replica_of_known (h : v.known.get? r = some info) : info.replica = r := by
  obtain ⟨info', -, he⟩ := List.mem_map.mp (SortedMap.mem_of_get?_ofList h)
  obtain ⟨hr, rfl⟩ := Prod.mk.inj he
  exact hr

lemma isSome_known : (v.known.get? r).isSome ↔ ∃ info ∈ v.replicas, info.replica = r := by
  rw [known, SortedMap.isSome_get?_ofList]
  simp only [List.mem_map, Prod.mk.injEq]
  exact ⟨fun ⟨_, info, hmem, hr, _⟩ => ⟨info, hmem, hr⟩,
    fun ⟨info, hmem, hr⟩ => ⟨info, info, hmem, hr, rfl⟩⟩

lemma contains_plan : (v.plan ringDistribution).contains r = true ↔ (v.known.get? r).isSome := by
  rw [plan, contains_ringDistribution, Option.isSome_iff_exists]
  constructor
  · rintro ⟨info, hmem, hr⟩
    obtain ⟨r', hr'⟩ := SortedMap.mem_values.mp hmem
    obtain rfl := (replica_of_known hr').symm.trans hr
    exact ⟨info, hr'⟩
  · rintro ⟨info, hinfo⟩
    exact ⟨info, SortedMap.mem_values.mpr ⟨r, hinfo⟩, replica_of_known hinfo⟩

lemma get?_known (hv : v.Unambiguous) :
    v.known.get? r = some info ↔ info ∈ v.replicas ∧ info.replica = r := by
  rw [known, SortedMap.get?_ofList]
  · simp only [List.mem_map, Prod.mk.injEq]
    exact ⟨fun ⟨_, hmem, hr, heq⟩ => heq ▸ ⟨hmem, hr⟩, fun ⟨hmem, hr⟩ => ⟨info, hmem, hr, rfl⟩⟩
  · simp only [List.mem_map]
    rintro _ ⟨i, hi, rfl⟩ _ ⟨i', hi', rfl⟩ hr
    rw [hv i hi i' hi' hr]

lemma SameAs.known (h : v.SameAs v') (hv : v.Unambiguous) : v.known = v'.known := by
  have hv' : v'.Unambiguous := fun i hi i' hi' =>
    hv i ((h.replicas i).mpr hi) i' ((h.replicas i').mpr hi')
  ext r info
  rw [get?_known hv, get?_known hv', h.replicas]

lemma KeptUpTo.refl (v : ClusterView) (t : Float) : v.KeptUpTo v t where
  nodes := rfl
  holders := rfl
  known _ := rfl
  requested r old new h h' := by rw [Option.some.inj (h.symm.trans h')]
  sizes r old new h h' := .inl (by rw [Option.some.inj (h.symm.trans h')])

lemma KeptUpTo.congr (hu : u.KeptUpTo v' t) (h : v.SameAs v') (hv : v.Unambiguous) :
    u.KeptUpTo v t where
  nodes := hu.nodes.trans (ringOf_congr h.nodes).symm
  holders := hu.holders.trans h.holders.symm
  known := h.known hv ▸ hu.known
  requested := h.known hv ▸ hu.requested
  sizes := h.known hv ▸ hu.sizes

def requestedOf (v : ClusterView) (r : ReplicaId) : Nat :=
  ((v.known.get? r).map ReplicaInfo.requestedReplicas).getD 0

lemma KeptUpTo.requestedReplicas (hu : u.KeptUpTo v t) (h : info ∈ u.known.values) :
    info.requestedReplicas = v.requestedOf info.replica := by
  obtain ⟨r, hr⟩ := SortedMap.mem_values.mp h
  obtain rfl := replica_of_known hr
  have hsome : (v.known.get? info.replica).isSome := by simp [← hu.known, hr]
  obtain ⟨last, hlast⟩ := Option.isSome_iff_exists.mp hsome
  simp [requestedOf, hlast, hu.requested _ info last hr hlast]

/-- Views that were kept up to one view and rank the replicas alike have one plan on the ring. -/
lemma KeptUpTo.plan_eq (hu : u.KeptUpTo v t) (hu' : u'.KeptUpTo v t')
    (h : u.ranking = u'.ranking) : u.plan ringDistribution = u'.plan ringDistribution := by
  rw [plan, plan, hu.nodes, hu'.nodes, hu.holders, hu'.holders]
  exact ringDistribution_congr (fun _ => hu.requestedReplicas) (fun _ => hu'.requestedReplicas) h

end ClusterView

/-! ### Distributors -/

namespace Distributor

variable {d d' : Distributor} {u v v' : ClusterView} {past past' : List ClusterView}

lemma keptUpTo_of_not_isMeaningful (hd : d.PlannedFrom u)
    (h : d.isMeaningful (ringOf v.nodes) v.known v.holders = false) :
    u.KeptUpTo v d.threshold := by
  simp only [isMeaningful, Bool.or_eq_false_iff, decide_eq_false_iff_not, not_not] at h
  obtain ⟨⟨⟨hnodes, hholders⟩, hsize⟩, hreplicas⟩ := h
  have hunchanged : ∀ r new, v.known.get? r = some new → ∃ old, u.known.get? r = some old ∧
      old.requestedReplicas = new.requestedReplicas ∧
        drifts d.threshold old.size new.size = false := by
    intro r new hnew
    have hkept := List.any_eq_false.mp hreplicas new (SortedMap.mem_values.mpr ⟨r, hnew⟩)
    rw [replicaChanged, ClusterView.replica_of_known hnew, hd.replicas] at hkept
    cases hold : u.known.get? r with
    | none => simp [hold] at hkept
    | some old => exact ⟨old, rfl, by simpa [hold] using hkept⟩
  have hold : ∀ r old new, u.known.get? r = some old → v.known.get? r = some new →
      old.requestedReplicas = new.requestedReplicas ∧
        drifts d.threshold old.size new.size = false := by
    intro r old new ho hn
    obtain ⟨old', ho', hsame⟩ := hunchanged r new hn
    obtain rfl : old' = old := Option.some.inj (ho'.symm.trans ho)
    exact hsame
  refine ⟨hd.nodes ▸ hnodes, hd.holders ▸ hholders, ?_,
    fun r old new ho hn => (hold r old new ho hn).1,
    fun r old new ho hn => .inr (hold r old new ho hn).2⟩
  refine SortedMap.isSome_get?_of_size_eq (hd.replicas ▸ hsize) fun r hr => ?_
  obtain ⟨new, hnew⟩ := Option.isSome_iff_exists.mp hr
  obtain ⟨old, ho, -⟩ := hunchanged r new hnew
  simp [ho]

/-- A view is planned for, or the plan stays and the view was kept. -/
lemma update_cases (h : 0 < d.epoch → ∃ u ∈ past, d.PlannedFrom u) :
    0 < (d.update v).1.epoch ∧
      ((d.update v).1.PlannedFrom v ∨
        (d.update v).2 = false ∧
          ∃ u ∈ past, (d.update v).1.PlannedFrom u ∧ u.KeptUpTo v d.threshold) := by
  rw [update, ← ClusterView.known]
  split
  · rename_i hkept
    obtain ⟨hepoch, hkept⟩ : 0 < d.epoch ∧
        d.isMeaningful (ringOf v.nodes) v.known v.holders = false := by simpa using hkept
    obtain ⟨u, hu, hd⟩ := h hepoch
    exact ⟨hepoch, .inr ⟨rfl, u, hu, hd, keptUpTo_of_not_isMeaningful hd hkept⟩⟩
  · exact ⟨Nat.succ_pos _, .inl ⟨rfl, rfl, rfl, rfl⟩⟩

@[simp] lemma update_strategy : (d.update v).1.strategy = d.strategy := by
  rw [update]
  split <;> rfl

@[simp] lemma update_threshold : (d.update v).1.threshold = d.threshold := by
  rw [update]
  split <;> rfl

lemma feed_append (past : List ClusterView) :
    d.feed (past ++ [v]) = ((d.feed past).update v).1 := by
  simp [feed]

@[simp] lemma feed_strategy : (d.feed past).strategy = d.strategy := by
  induction past using List.reverseRecOn with
  | nil => rfl
  | append_singleton past v ih => rw [feed_append, update_strategy, ih]

@[simp] lemma feed_threshold : (d.feed past).threshold = d.threshold := by
  induction past using List.reverseRecOn with
  | nil => rfl
  | append_singleton past v ih => rw [feed_append, update_threshold, ih]

/-- A plan was made for one of the views. -/
lemma plannedFrom_feed (strategy : Distribution) (t : Float) (past : List ClusterView) :
    0 < ((ofThreshold strategy t).feed past).epoch →
      ∃ u ∈ past, ((ofThreshold strategy t).feed past).PlannedFrom u := by
  induction past using List.reverseRecOn with
  | nil => exact fun h => absurd h (Nat.lt_irrefl 0)
  | append_singleton past v ih =>
    intro _
    rw [feed_append]
    rcases (update_cases (v := v) ih).2 with hplanned | ⟨-, u, hu, hplanned, -⟩
    · exact ⟨v, by simp, hplanned⟩
    · exact ⟨u, by simp [hu], hplanned⟩

/-- After any views the plan is the strategy's for a view that was kept up to the last one. -/
theorem planned_from_kept_view (strategy : Distribution) (t : Float) (past : List ClusterView)
    (v : ClusterView) : ∃ u ∈ past ++ [v], u.KeptUpTo v t ∧
      ((ofThreshold strategy t).feed (past ++ [v])).plan = u.plan strategy ∧
      ((((ofThreshold strategy t).feed past).update v).2 = true → u = v) := by
  have hstrategy : ((ofThreshold strategy t).feed (past ++ [v])).strategy = strategy :=
    feed_strategy
  have hthreshold : ((ofThreshold strategy t).feed past).threshold = t := feed_threshold
  rcases (update_cases (v := v) (plannedFrom_feed strategy t past)).2 with
    hplanned | ⟨hkept, u, hu, hplanned, hupto⟩
  · rw [← feed_append] at hplanned
    exact ⟨v, by simp, .refl v t, by rw [hplanned.plan, hstrategy], fun _ => rfl⟩
  · rw [← feed_append] at hplanned
    exact ⟨u, by simp [hu], hthreshold ▸ hupto, by rw [hplanned.plan, hstrategy],
      fun h => by simp [hkept] at h⟩

lemma contains_plan_feed (t : Float) (past : List ClusterView) (v : ClusterView) (r : ReplicaId) :
    ((ofThreshold ringDistribution t).feed (past ++ [v])).plan.contains r = true ↔
      ∃ info ∈ v.replicas, info.replica = r := by
  obtain ⟨u, -, hkept, hplan, -⟩ := planned_from_kept_view ringDistribution t past v
  rw [hplan, ClusterView.contains_plan, hkept.known, ClusterView.isSome_known]

lemma agreesWith_of_plan (h : d.plan = d'.plan) : d.AgreesWith d' := by
  have hplacement : ∀ r, d.placement r = d'.placement r := fun r => by rw [placement, h, placement]
  have hread : ∀ r, d.readReplicas r = d'.readReplicas r := fun r => by
    rw [readReplicas, hplacement, readReplicas]
  refine ⟨hplacement, fun r => by rw [writeReplicas, hplacement, writeReplicas], hread, fun n => ?_⟩
  rw [heldBy, heldBy, h]
  exact List.filter_congr fun r _ => by rw [isReadReplica, isReadReplica, hread]

/-- **Placement agreement.** Distributors that were last fed the same view planned from views that
were kept up to it. If those rank the replicas alike, the distributors agree on every placement,
whatever else they were fed. So they do if the last view made both plan anew. -/
theorem agree_after_same_view (h : v.SameAs v') (hv : v.Unambiguous) (past past' : List ClusterView)
    (t t' : Float) :
    let before := (ofThreshold ringDistribution t).feed past
    let before' := (ofThreshold ringDistribution t').feed past'
    let d := (ofThreshold ringDistribution t).feed (past ++ [v])
    let d' := (ofThreshold ringDistribution t').feed (past' ++ [v'])
    (∃ u ∈ past ++ [v], ∃ u' ∈ past' ++ [v'],
      u.KeptUpTo v t ∧ d.plan = u.plan ringDistribution ∧
      u'.KeptUpTo v t' ∧ d'.plan = u'.plan ringDistribution ∧
      (u.ranking = u'.ranking → d.AgreesWith d')) ∧
    ((before.update v).2 = true → (before'.update v').2 = true → d.AgreesWith d') := by
  intro before before' d d'
  obtain ⟨u, hu, hkept, hplan, hnew⟩ := planned_from_kept_view ringDistribution t past v
  obtain ⟨u', hu', hkept', hplan', hnew'⟩ := planned_from_kept_view ringDistribution t' past' v'
  have hagree : u.ranking = u'.ranking → d.AgreesWith d' := fun hranking =>
    agreesWith_of_plan
      (hplan.trans ((hkept.plan_eq (hkept'.congr h hv) hranking).trans hplan'.symm))
  refine ⟨⟨u, hu, u', hu', hkept, hplan, hkept'.congr h hv, hplan', hagree⟩,
    fun hb hb' => hagree ?_⟩
  rw [hnew hb, hnew' hb', ClusterView.ranking, ClusterView.ranking, h.known hv]

/-! ### Two sizes on two nodes -/

/-- Two replicas of which the second has some size, on two nodes. -/
def grown (size : Nat) : ClusterView where
  nodes := [⟨"a", "mem://a"⟩, ⟨"b", "mem://b"⟩]
  replicas := [⟨⟨"t", 0⟩, 10, 1⟩, ⟨⟨"t", 1⟩, size, 1⟩]
  holders := .empty

def grownReversed (size : Nat) : ClusterView where
  nodes := (grown size).nodes.reverse
  replicas := (grown size).replicas.reverse
  holders := .empty

/-- A size that doubles is planned for at once, whatever was planned before. -/
theorem agree_after_doubling :
    (grown 20).SameAs (grownReversed 20) ∧ (grown 20).Unambiguous ∧
      ((ofThreshold ringDistribution 0.25).feed [grown 10, grown 20]).AgreesWith
        ((ofThreshold ringDistribution 0.25).feed [grownReversed 20]) := by
  have hsame : (grown 20).SameAs (grownReversed 20) :=
    ⟨fun n => List.mem_reverse.symm, fun info => List.mem_reverse.symm, rfl⟩
  have hone : (grown 20).Unambiguous := by
    rw [ClusterView.Unambiguous]
    decide
  refine ⟨hsame, hone, (agree_after_same_view hsame hone [grown 10] [] 0.25 0.25).2 ?_ rfl⟩
  have hdrifted : (grown 20).known.values.any
      ((ofThreshold ringDistribution 0.25).feed [grown 10]).replicaChanged = true := by
    decide +kernel
  rw [update, ← ClusterView.known, isMeaningful, hdrifted, Bool.or_true, Bool.not_true,
    Bool.and_false, if_neg Bool.false_ne_true]

/-- A size that grows by a tenth is not planned for, so a node that saw the size before it and one
that did not place the replicas differently from then on. -/
theorem disagree_after_drift :
    (NodeConfig.validate { sizeChangeThreshold := 0.25 }).isOk = true ∧
      ((ofThreshold ringDistribution 0.25).feed [grown 10, grown 11]).writeReplicas ⟨"t", 0⟩ =
        [⟨"a", "mem://a"⟩] ∧
      ((ofThreshold ringDistribution 0.25).feed [grown 11]).writeReplicas ⟨"t", 0⟩ =
        [⟨"b", "mem://b"⟩] := by
  have hkept : ((ofThreshold ringDistribution 0.25).feed [grown 10]).isMeaningful
      (ringOf (grown 11).nodes) (grown 11).known (grown 11).holders = false := by
    simp only [isMeaningful, Bool.or_eq_false_iff, decide_eq_false_iff_not, not_not]
    exact ⟨⟨⟨rfl, rfl⟩, by decide⟩, by decide +kernel⟩
  have hstays : ((ofThreshold ringDistribution 0.25).feed [grown 10, grown 11]).plan =
      (grown 10).plan ringDistribution := by
    rw [show [grown 10, grown 11] = [grown 10] ++ [grown 11] from rfl, feed_append, update,
      ← ClusterView.known, hkept]
    rfl
  refine ⟨by decide +kernel, ?_, ?_⟩
  · rw [writeReplicas, placement, hstays]
    cbv
  · rw [writeReplicas, placement, show ((ofThreshold ringDistribution 0.25).feed [grown 11]).plan =
      (grown 11).plan ringDistribution from rfl]
    cbv

end Distributor

end DeltaRing
