import DeltaRing.Proofs.Placement.Successor
import DeltaRing.Proofs.Placement.Windows
import Mathlib.Algebra.BigOperators.Intervals
import Mathlib.Data.Nat.Count
import Mathlib.Tactic.Ring

/-!
How evenly the ring shares out the replicas.

The windows of consecutive replicas walk the ring forward, then backward. In either direction a
pass starts one window at every node, so a node lies in as many windows of a pass as a window has
nodes. A pass that is cut short gives a node at most what a whole one does, and at most one window
for each of its replicas. So where all replicas ask for equally many nodes, the shares of two nodes
differ by at most one pass, however large the replicas are.
-/

namespace DeltaRing

namespace Placement

open Selection

variable {size width p start q k : Nat} {ring nodes : List NodeInfo} {n : NodeInfo}
  {replicas front : List ReplicaInfo} {info : ReplicaInfo} {holders : Holders}

/-! ### Passes over the ring -/

/-- On a ring of `size` nodes the window of `width` nodes from `start` on has the node `p`. -/
def Reaches (size width p start : Nat) : Prop := ∃ i < width, (start + i) % size = p

instance : DecidablePred (Reaches size width p) := fun start =>
  inferInstanceAs (Decidable (∃ i < width, (start + i) % size = p))

/-- A window reaches a node ahead of its start, or one that it comes to past the ring's end. -/
lemma reaches_iff (hp : p < size) (hwidth : width ≤ size) (hstart : start < size) :
    Reaches size width p start ↔ start ≤ p ∧ p < start + width ∨ p + size < start + width := by
  constructor
  · rintro ⟨i, hi, rfl⟩
    rcases Nat.lt_or_ge (start + i) size with hlt | hge
    · rw [Nat.mod_eq_of_lt hlt]
      omega
    · rw [Nat.mod_eq_sub_mod hge, Nat.mod_eq_of_lt (by omega)]
      omega
  · rintro (⟨hle, hlt⟩ | hlt)
    · refine ⟨p - start, by omega, ?_⟩
      rw [Nat.add_sub_cancel' hle, Nat.mod_eq_of_lt hp]
    · refine ⟨p + size - start, by omega, ?_⟩
      rw [Nat.add_sub_cancel' (by omega), Nat.add_mod_right, Nat.mod_eq_of_lt hp]

/-- With one window from every node, a node is in as many windows as a window has nodes. -/
lemma count_reaches (hp : p < size) (hwidth : width ≤ size) :
    Nat.count (Reaches size width p) size = width := by
  have hstarts : (Finset.range size).filter (Reaches size width p) =
      Finset.Ico (p + 1 - width) (p + 1) ∪ Finset.Ico (p + size + 1 - width) size := by
    ext start
    simp only [Finset.mem_filter, Finset.mem_range, Finset.mem_union, Finset.mem_Ico]
    constructor
    · rintro ⟨hstart, hreaches⟩
      have := (reaches_iff hp hwidth hstart).mp hreaches
      omega
    · intro h
      have hstart : start < size := by omega
      exact ⟨hstart, (reaches_iff hp hwidth hstart).mpr (by omega)⟩
  have hdisjoint : Disjoint (Finset.Ico (p + 1 - width) (p + 1))
      (Finset.Ico (p + size + 1 - width) size) := by
    simp only [Finset.disjoint_left, Finset.mem_Ico]
    omega
  rw [Nat.count_eq_card_filter_range, hstarts, Finset.card_union_of_disjoint hdisjoint,
    Nat.card_Ico, Nat.card_Ico]
  omega

/-- Every other pass goes backward. -/
lemma windowStart_pass (q : Nat) (hk : k < size) :
    windowStart size (size * q + k) = if q % 2 = 0 then k else size - 1 - k := by
  rw [windowStart]
  obtain ⟨m, rfl | rfl⟩ := Nat.even_or_odd' q
  · have hturn : size * (2 * m) + k = k + 2 * size * m := by ring
    rw [hturn, Nat.add_mul_mod_self_left, Nat.mod_eq_of_lt (by omega), if_pos hk,
      if_pos (by omega)]
  · have hturn : size * (2 * m + 1) + k = size + k + 2 * size * m := by ring
    rw [hturn, Nat.add_mul_mod_self_left, Nat.mod_eq_of_lt (by omega), if_neg (by omega),
      if_neg (by omega)]
    omega

lemma count_congr {P Q : Nat → Prop} [DecidablePred P] [DecidablePred Q]
    (h : ∀ k < size, P k ↔ Q k) : Nat.count P size = Nat.count Q size :=
  List.countP_congr fun k hk => by simpa using h k (List.mem_range.mp hk)

/-- Counting backward is counting. -/
lemma count_reflect (P : Nat → Prop) [DecidablePred P] (size : Nat) :
    Nat.count (fun k => P (size - 1 - k)) size = Nat.count P size := by
  simp only [Nat.count_eq_card_filter_range, Finset.card_filter]
  exact Finset.sum_range_reflect (fun k => if P k then 1 else 0) size

lemma count_pass (hp : p < size) (hwidth : width ≤ size) (q : Nat) :
    Nat.count (fun k => Reaches size width p (windowStart size (size * q + k))) size = width := by
  have hpass : Nat.count (fun k => Reaches size width p (windowStart size (size * q + k))) size =
      Nat.count (Reaches size width p) size := by
    by_cases hq : q % 2 = 0
    · refine count_congr fun k hk => ?_
      rw [windowStart_pass q hk, if_pos hq]
    · rw [← count_reflect (Reaches size width p)]
      refine count_congr fun k hk => ?_
      rw [windowStart_pass q hk, if_neg hq]
  rw [hpass, count_reaches hp hwidth]

lemma count_passes (hp : p < size) (hwidth : width ≤ size) (q : Nat) :
    Nat.count (fun k => Reaches size width p (windowStart size k)) (size * q) = q * width := by
  induction q with
  | zero => simp
  | succ q ih => rw [Nat.mul_succ, Nat.count_add, ih, count_pass hp hwidth, Nat.succ_mul]

/-- What a node has of `count` windows, which are so many whole passes and a part of one. -/
structure FairShare (size width count share : Nat) : Prop where
  lower : count / size * width ≤ share
  upper : share ≤ count / size * width + min width (count % size)

/-- The windows that begin a walk are shared out fairly. -/
lemma fairShare_count (hp : p < size) (hwidth : width ≤ size) (count : Nat) :
    FairShare size width count
      (Nat.count (fun k => Reaches size width p (windowStart size k)) count) := by
  have hsplit : Nat.count (fun k => Reaches size width p (windowStart size k)) count =
      count / size * width + Nat.count (fun k => Reaches size width p
        (windowStart size (size * (count / size) + k))) (count % size) := by
    rw [← count_passes hp hwidth (count / size), ← Nat.count_add, Nat.div_add_mod]
  -- what is left of the last pass is the beginning of a whole one
  have hpart := Nat.count_monotone (fun k => Reaches size width p
    (windowStart size (size * (count / size) + k))) (Nat.mod_lt count (by omega : size > 0)).le
  rw [count_pass hp hwidth] at hpart
  rw [hsplit]
  exact ⟨Nat.le_add_right _ _, Nat.add_le_add_left (Nat.le_min.mpr ⟨hpart, Nat.count_le _⟩) _⟩

/-! ### Shares of a plan -/

def share (plan : Plan) (n : NodeInfo) (infos : List ReplicaInfo) : Nat :=
  infos.countP fun info => n ∈ (plan.getD info.replica default).write

lemma mem_write_onRing : n ∈ (onRing ring holders k info).write ↔
    ∃ i < min (max info.requestedReplicas 1) ring.length,
      ring[(windowStart ring.length k + i) % ring.length]? = some n := by
  simp only [onRing, ofWindow, mem_sort, window, List.mem_filterMap, List.mem_range]

/-- The `p`th node of the ring writes to the replicas whose windows reach it. -/
lemma mem_write_onRing_iff_reaches (hring : ring.Nodup) (hp : ring[p]? = some n) :
    n ∈ (onRing ring holders k info).write ↔
      Reaches ring.length (min (max info.requestedReplicas 1) ring.length) p
        (windowStart ring.length k) := by
  obtain ⟨hlt, hget⟩ := List.getElem?_eq_some_iff.mp hp
  rw [mem_write_onRing]
  refine exists_congr fun i => and_congr_right fun _ => ?_
  have hturn : (windowStart ring.length k + i) % ring.length < ring.length :=
    Nat.mod_lt _ (by omega)
  rw [List.getElem?_eq_getElem hturn, Option.some.injEq, ← hget]
  exact hring.getElem_inj_iff

lemma share_take (holders : Holders) (hids : (replicas.map ReplicaInfo.replica).Nodup)
    {requested : Nat} (hsame : ∀ info ∈ replicas, info.requestedReplicas = requested)
    (hp : (ringOf nodes)[p]? = some n) {count : Nat} (hcount : count ≤ replicas.length) :
    share (ringDistribution replicas nodes holders) n ((order replicas).take count) =
      Nat.count (fun k => Reaches (ringOf nodes).length
        (min (max requested 1) (ringOf nodes).length) p
        (windowStart (ringOf nodes).length k)) count := by
  have hring : (ringOf nodes).Nodup := (nodup_ids (sorted_ringOf nodes)).of_map _
  induction count with
  | zero => rfl
  | succ k ih =>
    have hlt : k < (order replicas).length := by
      rw [(order_perm replicas).length_eq]
      omega
    set info := (order replicas)[k] with hinfo
    have hk : (order replicas)[k]? = some info := List.getElem?_eq_getElem hlt
    have hrequested : info.requestedReplicas = requested :=
      hsame info (mem_order.mp (List.getElem_mem hlt))
    have hplaced : (ringDistribution replicas nodes holders).getD info.replica default =
        onRing (ringOf nodes) holders k info := by
      rw [SortedMap.getD, get?_ringDistribution hids hk, Option.getD_some]
    rw [List.take_add_one, hk, Option.toList_some, share, List.countP_append, ← share,
      ih (by omega), Nat.count_succ, List.countP_singleton, hplaced]
    simp only [mem_write_onRing_iff_reaches hring hp, hrequested, decide_eq_true_eq]

lemma ringOf_perm (hnodes : (nodes.map NodeInfo.id).Nodup) : (ringOf nodes).Perm nodes := by
  have hring : (ringOf nodes).Nodup := (nodup_ids (sorted_ringOf nodes)).of_map _
  refine (List.perm_ext_iff_of_nodup hring (hnodes.of_map _)).mpr fun n => ?_
  exact mem_ringOf_of_distinct fun n hn m hm hid => List.inj_on_of_nodup_map hnodes hn hm hid

/-- **Placement is balanced.** Where all replicas ask for equally many nodes, every node accepts
writes to its fair share of them: of all replicas, and of the largest ones, however many these
are. -/
theorem placement_is_balanced (hids : (replicas.map ReplicaInfo.replica).Nodup) {requested : Nat}
    (hsame : ∀ info ∈ replicas, info.requestedReplicas = requested)
    (hnodes : (nodes.map NodeInfo.id).Nodup) (holders : Holders) :
    let width := min (max requested 1) nodes.length
    let plan := ringDistribution replicas nodes holders
    ∀ n ∈ nodes,
      FairShare nodes.length width replicas.length (share plan n replicas) ∧
      ∀ front, front <+: order replicas →
        FairShare nodes.length width front.length (share plan n front) := by
  intro width plan n hn
  have hperm := ringOf_perm hnodes
  have hlength : (ringOf nodes).length = nodes.length := hperm.length_eq
  obtain ⟨p, hp⟩ := List.getElem?_of_mem (hperm.mem_iff.mpr hn)
  have hfront : ∀ front, front <+: order replicas →
      FairShare nodes.length width front.length (share plan n front) := by
    intro front hfront
    have hcount : front.length ≤ replicas.length :=
      (order_perm replicas).length_eq ▸ hfront.length_le
    have hshare := share_take holders hids hsame hp hcount
    rw [← List.prefix_iff_eq_take.mp hfront, hlength] at hshare
    rw [hshare]
    exact fairShare_count (hlength ▸ (List.getElem?_eq_some_iff.mp hp).1) (Nat.min_le_right _ _) _
  refine ⟨?_, hfront⟩
  have hall := hfront (order replicas) List.prefix_rfl
  have hshare : share plan n (order replicas) = share plan n replicas :=
    (order_perm replicas).countP_eq _
  rwa [hshare, (order_perm replicas).length_eq] at hall

/-! ### Seven replicas on three nodes -/

def threeNodes : List NodeInfo := [⟨"c", "mem://c"⟩, ⟨"a", "mem://a"⟩, ⟨"b", "mem://b"⟩]

def sevenReplicas : List ReplicaInfo :=
  (List.range 7).map fun shard => ⟨⟨"t", shard⟩, 10 * shard, 2⟩

/-- Two whole passes give a node four of the seven replicas, the seventh gives it one or none, and
of the three largest every node has two. -/
theorem two_passes_and_a_part :
    let plan := ringDistribution sevenReplicas threeNodes .empty
    (sevenReplicas.map ReplicaInfo.replica).Nodup ∧
      (∀ info ∈ sevenReplicas, info.requestedReplicas = 2) ∧
      (threeNodes.map NodeInfo.id).Nodup ∧
      ∀ n ∈ threeNodes,
        4 ≤ share plan n sevenReplicas ∧ share plan n sevenReplicas ≤ 5 ∧
          share plan n ((order sevenReplicas).take 3) = 2 := by
  intro plan
  have hids : (sevenReplicas.map ReplicaInfo.replica).Nodup := by decide
  have hsame : ∀ info ∈ sevenReplicas, info.requestedReplicas = 2 := by decide
  have hnodes : (threeNodes.map NodeInfo.id).Nodup := by decide
  refine ⟨hids, hsame, hnodes, fun n hn => ?_⟩
  obtain ⟨hall, hfront⟩ := placement_is_balanced hids hsame hnodes .empty n hn
  have hlargest := hfront _ (List.take_prefix 3 (order sevenReplicas))
  have hthree : ((order sevenReplicas).take 3).length = 3 := by
    rw [List.length_take, (order_perm sevenReplicas).length_eq]
    rfl
  rw [hthree] at hlargest
  exact ⟨hall.lower, hall.upper, Nat.le_antisymm hlargest.upper hlargest.lower⟩

end Placement

end DeltaRing
