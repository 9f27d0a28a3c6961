import DeltaRing.Proofs.Placement.Agreement
import DeltaRing.Proofs.Placement.Selection
import Mathlib.Data.Finset.Card
import Mathlib.Data.List.Rotate
import Mathlib.Data.Set.Basic

/-!
Every replica on its window of the ring.

The plan on the ring has one entry for every replica. Its writers are consecutive nodes of the ring,
as many as are asked for or as there are, and its readers are the writers and the nodes of the
holders. The plan is the same however replicas and nodes are listed, and to compute it never takes
an index, a difference or a remainder that is not there.
-/

namespace DeltaRing

namespace Placement

open Key Selection

variable {ns nodes nodes' ring win : List NodeInfo} {n : NodeInfo} {heldBy : SortedSet NodeId}
  {holders : Holders} {replicas replicas' : List ReplicaInfo} {info : ReplicaInfo}
  {start width k : Nat}

/-! ### The ring -/

structure IsRingOf (ring nodes : List NodeInfo) : Prop where
  sorted : ring.Pairwise fun n m => Before n.id m.id
  mem_nodes : ∀ n ∈ ring, n ∈ nodes
  exists_mem : ∀ n ∈ nodes, ∃ m ∈ ring, m.id = n.id
  length_eq : ring.length = (nodes.map NodeInfo.id).toFinset.card

lemma nodup_ids (h : ns.Pairwise fun n m => Before n.id m.id) : (ns.map NodeInfo.id).Nodup :=
  List.pairwise_map.mpr (h.imp Before.ne)

lemma isRingOf_ringOf (nodes : List NodeInfo) : IsRingOf (ringOf nodes) nodes := by
  have hmem : ∀ n ∈ ringOf nodes, n ∈ nodes := fun n hn => (mem_ringOf.mp hn).1
  have hexists : ∀ n ∈ nodes, ∃ m ∈ ringOf nodes, m.id = n.id :=
    fun n hn => exists_mem_distinct (mem_sort.mpr hn)
  refine ⟨sorted_ringOf nodes, hmem, hexists, ?_⟩
  have hids : ((ringOf nodes).map NodeInfo.id).toFinset = (nodes.map NodeInfo.id).toFinset := by
    ext i
    simp only [List.mem_toFinset, List.mem_map]
    constructor
    · rintro ⟨n, hn, rfl⟩
      exact ⟨n, hmem n hn, rfl⟩
    · rintro ⟨n, hn, rfl⟩
      exact hexists n hn
  rw [← hids, List.toFinset_card_of_nodup (nodup_ids (sorted_ringOf nodes)), List.length_map]

/-- Sorting puts nodes without a repeated id in the order of their ids. -/
lemma sort_ids (h : (ns.map NodeInfo.id).Nodup) :
    (sort ns).Pairwise fun n m => Before n.id m.id := by
  have hperm : ((sort ns).map NodeInfo.id).Perm (ns.map NodeInfo.id) :=
    (sort_perm ns).map _
  have hne : (sort ns).Pairwise fun n m => n.id ≠ m.id :=
    List.pairwise_map.mp (hperm.nodup_iff.mpr h)
  exact ((sorted_sort ns).and hne).imp fun ⟨hle, hne⟩ => (upto_id hle).before_of_ne hne

/-! ### Windows -/

lemma windowStart_lt {size : Nat} (h : 0 < size) (k : Nat) : windowStart size k < size := by
  have hturn : k % (2 * size) < 2 * size := Nat.mod_lt k (by omega)
  rw [windowStart]
  split <;> omega

/-- Consecutive nodes of the ring are its first ones when it is turned to where they start. -/
lemma window_eq_take_rotate (h : width ≤ ring.length) :
    window ring start width = (ring.rotate start).take width := by
  induction width with
  | zero => rfl
  | succ width ih =>
    have hturn : ring[(start + width) % ring.length]? = (ring.rotate start)[width]? := by
      rw [List.getElem?_rotate h, Nat.add_comm]
    have hstep : window ring start (width + 1) =
        window ring start width ++ (ring[(start + width) % ring.length]?).toList := by
      rw [window, List.range_succ, List.filterMap_append, window]
      cases h : ring[(start + width) % ring.length]? <;> simp [h]
    rw [hstep, ih (by omega), hturn, List.take_add_one]

/-- What a placement on `width` nodes of the ring is, given who holds copies. -/
structure FillsWindow (ring : List NodeInfo) (heldBy : SortedSet NodeId) (width : Nat)
    (p : Placement) : Prop where
  window : ∃ start, (ring = [] ∨ start < ring.length) ∧
    p.write.Perm ((ring.rotate start).take width)
  length_write : p.write.length = width
  sorted_write : p.write.Pairwise fun n m => Before n.id m.id
  mem_read : ∀ n, n ∈ p.read ↔ n ∈ p.write ∨ n ∈ ring ∧ heldBy.contains n.id = true
  sorted_read : p.read.Pairwise fun n m => Before n.id m.id

lemma mem_read_ofWindow : n ∈ (ofWindow ring heldBy win).read ↔
    n ∈ win ∨ n ∈ ring ∧ heldBy.contains n.id = true ∧ ∀ w ∈ win, w.id ≠ n.id := by
  simp [ofWindow, mem_sort]

lemma mem_read_ofWindow_of_mem (hring : ring.Pairwise fun n m => Before n.id m.id)
    (hwin : ∀ w ∈ win, w ∈ ring) :
    n ∈ (ofWindow ring heldBy win).read ↔ n ∈ win ∨ n ∈ ring ∧ heldBy.contains n.id = true := by
  rw [mem_read_ofWindow]
  constructor
  · exact Or.imp_right fun ⟨hn, hheld, _⟩ => ⟨hn, hheld⟩
  · rintro (hn | ⟨hn, hheld⟩)
    · exact .inl hn
    · by_cases hwrites : ∃ w ∈ win, w.id = n.id
      · obtain ⟨w, hw, hid⟩ := hwrites
        exact .inl (List.inj_on_of_nodup_map (nodup_ids hring) (hwin w hw) hn hid ▸ hw)
      · exact .inr ⟨hn, hheld, fun w hw hid => hwrites ⟨w, hw, hid⟩⟩

lemma sorted_read_ofWindow (hring : ring.Pairwise fun n m => Before n.id m.id)
    (hwin : (win.map NodeInfo.id).Nodup) :
    (ofWindow ring heldBy win).read.Pairwise fun n m => Before n.id m.id := by
  have hkeepers : ∀ p, ((ring.filter p).map NodeInfo.id).Nodup := fun p =>
    nodup_ids (hring.filter p)
  have hwrite : ((sort win).map NodeInfo.id).Nodup := nodup_ids (sort_ids hwin)
  refine sort_ids ?_
  rw [List.map_append, List.nodup_append]
  refine ⟨hwrite, hkeepers _, fun i hi j hj => ?_⟩
  obtain ⟨w, hw, rfl⟩ := List.mem_map.mp hi
  obtain ⟨n, hn, rfl⟩ := List.mem_map.mp hj
  have hbeside : ∀ w ∈ sort win, w.id ≠ n.id := by
    have hkept := (List.mem_filter.mp hn).2
    simp only [Bool.and_eq_true, Bool.not_eq_true', List.any_eq_false, decide_eq_true_eq] at hkept
    exact hkept.2
  exact hbeside w hw

lemma fillsWindow_ofWindow (hring : ring.Pairwise fun n m => Before n.id m.id)
    (hstart : ring = [] ∨ start < ring.length) (hwidth : width ≤ ring.length) :
    FillsWindow ring heldBy width (ofWindow ring heldBy (window ring start width)) := by
  have hwindow : window ring start width = (ring.rotate start).take width :=
    window_eq_take_rotate hwidth
  have hperm := sort_perm (window ring start width)
  have hsub : (window ring start width).Sublist (ring.rotate start) :=
    hwindow ▸ List.take_sublist _ _
  have hmem : ∀ w ∈ window ring start width, w ∈ ring := fun w hw =>
    List.mem_rotate.mp (hsub.mem hw)
  have hids : ((window ring start width).map NodeInfo.id).Nodup := by
    have hturned : ((ring.rotate start).map NodeInfo.id).Nodup :=
      ((List.rotate_perm ring start).map _).nodup_iff.mpr (nodup_ids hring)
    exact hturned.sublist (hsub.map _)
  refine ⟨⟨start, hstart, hwindow ▸ hperm⟩, ?_, sort_ids hids, fun n => ?_,
    sorted_read_ofWindow hring hids⟩
  · rw [ofWindow, hperm.length_eq, hwindow]
    simpa using hwidth
  · rw [mem_read_ofWindow_of_mem hring hmem]
    simp [ofWindow, mem_sort]

lemma fillsWindow_onRing (hring : ring.Pairwise fun n m => Before n.id m.id) :
    FillsWindow ring (holders.getD info.replica .empty)
      (min (max info.requestedReplicas 1) ring.length) (onRing ring holders k info) := by
  refine fillsWindow_ofWindow hring ?_ (Nat.min_le_right _ _)
  rcases Nat.eq_zero_or_pos ring.length with hnil | hpos
  · exact .inl (List.eq_nil_of_length_eq_zero hnil)
  · exact .inr (windowStart_lt hpos k)

/-! ### The order of the replicas -/

/-- The larger replica comes first, and of replicas of one size the one with the lesser id. -/
def ranks : ReplicaInfo → ReplicaInfo → Ordering :=
  compareLex (fun a b => compareOn ReplicaInfo.size b a) (compareOn ReplicaInfo.replica)

instance : Std.TransCmp ranks :=
  inferInstanceAs (Std.TransCmp (compareLex _ _))

lemma sorted_order (l : List ReplicaInfo) : (order l).Pairwise fun a b => (ranks a b).isLE := by
  refine List.pairwise_mergeSort (fun a b c hab hbc => ?_) (fun a b => ?_) l
  · exact (Std.TransCmp.isLE_trans hab hbc : (ranks a c).isLE)
  · have hswap : ranks b a = (ranks a b).swap := Std.OrientedCmp.eq_swap
    change ((ranks a b).isLE || (ranks b a).isLE) = true
    rw [hswap]
    cases ranks a b <;> rfl

/-- Replicas of different ids stand in one order, however they are listed. -/
lemma order_congr (hids : (replicas.map ReplicaInfo.replica).Nodup)
    (h : replicas'.Perm replicas) : order replicas' = order replicas := by
  have hperm : (order replicas').Perm (order replicas) :=
    (order_perm replicas').trans (h.trans (order_perm replicas).symm)
  refine hperm.eq_of_pairwise (fun a b ha hb hab hba => ?_) (sorted_order _) (sorted_order _)
  have htie : ranks a b = .eq := Std.OrientedCmp.isLE_antisymm hab hba
  obtain ⟨-, hreplica⟩ := Ordering.then_eq_eq.mp htie
  exact List.inj_on_of_nodup_map hids (h.mem_iff.mp (mem_order.mp ha)) (mem_order.mp hb)
    (compare_eq_iff.mp hreplica)

/-! ### Steps that can fail -/

def sub? (a b : Nat) : Option Nat := if b ≤ a then some (a - b) else none

def mod? (a b : Nat) : Option Nat := if b = 0 then none else some (a % b)

/-- Where a window starts, with every remainder and difference checked. -/
def windowStart? (n k : Nat) : Option Nat := do
  let turn ← mod? k (2 * n)
  if turn < n then return turn else sub? (← sub? (2 * n) 1) turn

def window? (ring : List NodeInfo) (start width : Nat) : Option (List NodeInfo) :=
  (List.range width).mapM fun i => do ring[← mod? (start + i) ring.length]?

/-- A placement, with every step checked. An empty ring has no windows. -/
def onRing? (ring : List NodeInfo) (holders : Holders) (k : Nat) (info : ReplicaInfo) :
    Option Placement := do
  if ring.length = 0 then return default
  let start ← windowStart? ring.length k
  let width := min (max info.requestedReplicas 1) ring.length
  return ofWindow ring (holders.getD info.replica .empty) (← window? ring start width)

def ringDistribution? (replicas : List ReplicaInfo) (nodes : List NodeInfo) (holders : Holders) :
    Option Plan := do
  let ring := ringOf nodes
  let entries ← (order replicas).zipIdx.mapM fun (info, k) => do
    return (info.replica, ← onRing? ring holders k info)
  return .ofList entries

lemma windowStart?_eq {size : Nat} (h : 0 < size) (k : Nat) :
    windowStart? size k = some (windowStart size k) := by
  have hturn : k % (2 * size) < 2 * size := Nat.mod_lt k (by omega)
  have hmod : mod? k (2 * size) = some (k % (2 * size)) := if_neg (by omega)
  have hlast : sub? (2 * size) 1 = some (2 * size - 1) := if_pos (by omega)
  rw [windowStart?, hmod, Option.bind_eq_bind, Option.bind_some, windowStart]
  split
  · rfl
  · rw [hlast]
    exact if_pos (by omega)

lemma mapM_eq_some_filterMap {α β : Type} {f : α → Option β} {l : List α}
    (h : ∀ a ∈ l, (f a).isSome) : l.mapM f = some (l.filterMap f) := by
  induction l with
  | nil => rfl
  | cons a l ih =>
    obtain ⟨b, hb⟩ := Option.isSome_iff_exists.mp (h a (by simp))
    rw [List.mapM_cons, hb, ih fun a ha => h a (List.mem_cons_of_mem _ ha),
      List.filterMap_cons_some hb]
    rfl

lemma window?_eq (h : 0 < ring.length) (start width : Nat) :
    window? ring start width = some (window ring start width) := by
  have hstep : ∀ i, (do ring[← mod? (start + i) ring.length]?) =
      ring[(start + i) % ring.length]? := fun i => by
    rw [mod?, if_neg (by omega), Option.bind_eq_bind, Option.bind_some]
  rw [window?, window]
  simp only [hstep]
  refine mapM_eq_some_filterMap fun i _ => ?_
  rw [List.getElem?_eq_getElem (Nat.mod_lt _ h)]
  rfl

lemma onRing_nil : onRing [] holders k info = default := by
  simp only [onRing, ofWindow, window, sort, List.length_nil, Nat.min_zero, List.range_zero,
    List.filterMap_nil, List.filter_nil, List.mergeSort_nil, List.append_nil]
  rfl

lemma onRing?_eq : onRing? ring holders k info = some (onRing ring holders k info) := by
  rw [onRing?]
  split
  · rename_i hnil
    obtain rfl := List.eq_nil_of_length_eq_zero hnil
    rw [onRing_nil]
    rfl
  · rename_i hne
    have hpos : 0 < ring.length := Nat.pos_of_ne_zero hne
    rw [windowStart?_eq hpos]
    simp only [window?_eq hpos]
    rfl

lemma ringDistribution?_eq :
    ringDistribution? replicas nodes holders = some (ringDistribution replicas nodes holders) := by
  have hentries : (order replicas).zipIdx.mapM (fun (info, k) => do
      return (info.replica, ← onRing? (ringOf nodes) holders k info)) =
      some ((order replicas).zipIdx.map fun (info, k) =>
        (info.replica, onRing (ringOf nodes) holders k info)) := by
    simp only [onRing?_eq]
    exact List.mapM_pure
  exact congrArg (fun entries => entries.bind fun l => some (SortedMap.ofList l)) hentries

/-! ### The plan -/

lemma get?_ringDistribution (hids : (replicas.map ReplicaInfo.replica).Nodup)
    (h : (order replicas)[k]? = some info) :
    (ringDistribution replicas nodes holders).get? info.replica =
      some (onRing (ringOf nodes) holders k info) := by
  set entries := (order replicas).zipIdx.map fun (info, k) =>
    (info.replica, onRing (ringOf nodes) holders k info) with hentries
  have hkeys : entries.map Prod.fst = (order replicas).map ReplicaInfo.replica := by
    rw [hentries, List.map_map]
    conv_rhs => rw [← List.zipIdx_map_fst 0 (order replicas), List.map_map]
    rfl
  have hnodup : (entries.map Prod.fst).Nodup := by
    rw [hkeys]
    exact ((order_perm replicas).map _).nodup_iff.mpr hids
  refine (SortedMap.get?_ofList fun e he e' he' => List.inj_on_of_nodup_map hnodup he he').mpr ?_
  exact List.mem_map.mpr ⟨(info, k), List.mem_zipIdx_iff_getElem?.mpr h, rfl⟩

lemma keys_ringDistribution (hids : (replicas.map ReplicaInfo.replica).Nodup) :
    (ringDistribution replicas nodes holders).keys.Perm (replicas.map ReplicaInfo.replica) := by
  refine (List.perm_ext_iff_of_nodup (SortedMap.nodup_keys _) hids).mpr fun r => ?_
  rw [SortedMap.mem_keys, ← SortedMap.contains, contains_ringDistribution, List.mem_map]

/-- **Placement on the ring.** The plan has one entry for every replica. Its writers are consecutive
nodes of the ring, as many as are asked for, but at least one, and at most all; its readers are the
writers and the nodes of the ring that the holders name; and both are in the order of ids, no id
twice. No step of the computation fails, and the plan stays the same when replicas and nodes are
listed otherwise. -/
theorem every_replica_on_its_window (hids : (replicas.map ReplicaInfo.replica).Nodup)
    (nodes : List NodeInfo) (holders : Holders) :
    let ring := ringOf nodes
    let plan := ringDistribution replicas nodes holders
    IsRingOf ring nodes ∧
    plan.keys.Perm (replicas.map ReplicaInfo.replica) ∧
    (∀ info ∈ replicas, ∃ p, plan.get? info.replica = some p ∧
      FillsWindow ring (holders.getD info.replica .empty)
        (min (max info.requestedReplicas 1) ring.length) p) ∧
    ringDistribution? replicas nodes holders = some plan ∧
    ∀ replicas' nodes', replicas'.Perm replicas → nodes'.Perm nodes →
      ringDistribution replicas' nodes' holders = plan := by
  intro ring plan
  refine ⟨isRingOf_ringOf nodes, keys_ringDistribution hids, fun info hinfo => ?_,
    ringDistribution?_eq, fun replicas' nodes' hreplicas hnodes => ?_⟩
  · obtain ⟨k, hk⟩ := List.getElem?_of_mem (mem_order.mpr hinfo)
    exact ⟨_, get?_ringDistribution hids hk, fillsWindow_onRing (sorted_ringOf nodes)⟩
  · rw [ringDistribution, order_congr hids hreplicas, ringOf_congr fun n => hnodes.mem_iff]
    rfl

/-! ### Four shards on three nodes -/

/-- Three ids, one of them under two addresses. -/
def gathered : List NodeInfo :=
  [⟨"c", "mem://c"⟩, ⟨"a", "mem://a2"⟩, ⟨"b", "mem://b"⟩, ⟨"a", "mem://a"⟩]

def shards : List ReplicaInfo :=
  [⟨⟨"t", 3⟩, 10, 2⟩, ⟨⟨"t", 0⟩, 10, 0⟩, ⟨⟨"t", 1⟩, 30, 1⟩, ⟨⟨"t", 2⟩, 10, 5⟩]

/-- The fourth shard is held by a node of the ring and by one that has gone. -/
def reports : Holders := .ofList [(⟨"t", 3⟩, .ofList ["b", "z"])]

/-- The shards are placed on the three nodes, and on no nodes with no one to write to. -/
theorem shards_on_their_windows :
    let plan := ringDistribution shards gathered reports
    (shards.map ReplicaInfo.replica).Nodup ∧ (ringOf gathered).length = 3 ∧
      plan.keys.length = 4 ∧
      (∃ p, plan.get? ⟨"t", 3⟩ = some p ∧ p.write.length = 2 ∧ ⟨"b", "mem://b"⟩ ∈ p.read) ∧
      ringDistribution shards.reverse gathered.reverse reports = plan ∧
      ∃ p, (ringDistribution shards [] reports).get? ⟨"t", 3⟩ = some p ∧ p.write = [] := by
  have hids : (shards.map ReplicaInfo.replica).Nodup := by decide
  obtain ⟨hring, hkeys, hplaced, -, hsame⟩ := every_replica_on_its_window hids gathered reports
  have hlength : (ringOf gathered).length = 3 := hring.length_eq.trans (by decide)
  obtain ⟨p, hp, hwindow⟩ := hplaced ⟨⟨"t", 3⟩, 10, 2⟩ (by decide)
  have hb : (⟨"b", "mem://b"⟩ : NodeInfo) ∈ ringOf gathered := mem_ringOf.mpr (by decide)
  obtain ⟨hnone, -, hnowhere, -, -⟩ := every_replica_on_its_window hids [] reports
  obtain ⟨p', hp', hempty⟩ := hnowhere ⟨⟨"t", 3⟩, 10, 2⟩ (by decide)
  refine ⟨hids, hlength, hkeys.length_eq, ⟨p, hp, ?_, ?_⟩,
    hsame _ _ (List.reverse_perm _) (List.reverse_perm _),
    ⟨p', hp', List.eq_nil_of_length_eq_zero ?_⟩⟩
  · rw [hwindow.length_write, hlength]
    rfl
  · exact (hwindow.mem_read _).mpr (.inr ⟨hb, by decide +kernel⟩)
  · rw [hempty.length_write, hnone.length_eq]
    rfl

end Placement

end DeltaRing
