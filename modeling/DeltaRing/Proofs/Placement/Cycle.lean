import DeltaRing.Proofs.Placement.Successor
import Mathlib.Data.List.Nodup
import Mathlib.Data.Set.Function
import Mathlib.Logic.Function.Iterate

/-!
The successors form one cycle.

A node's rank is the number of ids before its own, which is its place on the ring. The successor of
a node has the next rank, and the last node is followed by the first. So every node has one
successor and is the successor of one node, and who follows successors visits all nodes in turn,
though every node may be given the candidates in an order of its own. A node from outside enters the
cycle at the place of its id.
-/

namespace DeltaRing.Selection

open Key Placement

variable {here n m : NodeInfo} {cs ns nodes ring : List NodeInfo} {k : Nat}
  {candidates : NodeInfo → List NodeInfo}

/-! ### Ranks -/

def rank (ns : List NodeInfo) (n : NodeInfo) : Nat := ns.countP fun m => compare m.id n.id = .lt

lemma rank_perm (h : cs.Perm ns) (n : NodeInfo) : rank cs n = rank ns n := h.countP_eq _

lemma rank_of_getElem? (hring : ring.Pairwise fun n m => Before n.id m.id)
    (hk : ring[k]? = some n) : rank ring n = k := by
  obtain ⟨hlt, rfl⟩ := List.getElem?_eq_some_iff.mp hk
  have hsplit : ring = ring.take k ++ ring.drop k := (List.take_append_drop k ring).symm
  have hbefore : ∀ m ∈ ring.take k, compare m.id ring[k].id = .lt := by
    rw [hsplit, List.pairwise_append] at hring
    exact fun m hm => hring.2.2 m hm _ (List.drop_eq_getElem_cons hlt ▸ List.mem_cons_self)
  have hafter : ∀ m ∈ ring.drop k, ¬compare m.id ring[k].id = .lt := by
    have hrest := hring.sublist (List.drop_sublist k ring)
    rw [List.drop_eq_getElem_cons hlt, List.pairwise_cons] at hrest
    rw [List.drop_eq_getElem_cons hlt]
    refine List.forall_mem_cons.mpr ⟨not_before_self ring[k].id, fun m hm => ?_⟩
    exact (hrest.1 m hm).asymm
  calc rank ring ring[k]
      = (ring.take k).countP (fun m => compare m.id ring[k].id = .lt) +
          (ring.drop k).countP (fun m => compare m.id ring[k].id = .lt) := by
        rw [← List.countP_append, ← hsplit, rank]
    _ = (ring.take k).length + 0 := by
        rw [List.countP_eq_length.mpr fun m hm => decide_eq_true (hbefore m hm),
          List.countP_eq_zero.mpr fun m hm => by simpa using hafter m hm]
    _ = k := List.length_take_of_le (Nat.le_of_lt hlt)

lemma distinct_of_nodup (h : (ns.map NodeInfo.id).Nodup) : Distinct ns := fun _ hn _ hm hid =>
  List.inj_on_of_nodup_map h hn hm hid

lemma ringOf_perm (h : (ns.map NodeInfo.id).Nodup) : (ringOf ns).Perm ns := by
  have hring : (ringOf ns).Nodup :=
    (sorted_ringOf ns).imp fun hb heq => hb.ne (congrArg NodeInfo.id heq)
  exact (List.perm_ext_iff_of_nodup hring (List.Nodup.of_map _ h)).mpr fun n =>
    mem_ringOf_of_distinct (distinct_of_nodup h)

/-- The ring lists the nodes by rank. -/
lemma ringOf_getElem?_iff (h : (ns.map NodeInfo.id).Nodup) :
    (ringOf ns)[k]? = some n ↔ n ∈ ns ∧ rank ns n = k := by
  rw [← rank_perm (ringOf_perm h)]
  constructor
  · intro hk
    exact ⟨(ringOf_perm h).mem_iff.mp (List.mem_of_getElem? hk),
      rank_of_getElem? (sorted_ringOf ns) hk⟩
  · rintro ⟨hn, rfl⟩
    obtain ⟨k, hk⟩ := List.mem_iff_getElem?.mp ((ringOf_perm h).mem_iff.mpr hn)
    rwa [rank_of_getElem? (sorted_ringOf ns) hk]

lemma rank_lt_length (h : (ns.map NodeInfo.id).Nodup) (hn : n ∈ ns) : rank ns n < ns.length := by
  rw [← (ringOf_perm h).length_eq]
  exact (List.getElem?_eq_some_iff.mp ((ringOf_getElem?_iff h).mpr ⟨hn, rfl⟩)).1

lemma eq_of_rank_eq (h : (ns.map NodeInfo.id).Nodup) (hn : n ∈ ns) (hm : m ∈ ns)
    (heq : rank ns n = rank ns m) : n = m :=
  Option.some.inj (((ringOf_getElem?_iff h).mpr ⟨hn, heq⟩).symm.trans
    ((ringOf_getElem?_iff h).mpr ⟨hm, rfl⟩))

/-! ### Following successors -/

/-- The node that follows, if one is picked among the candidates that the node is given. -/
def next (candidates : NodeInfo → List NodeInfo) (n : NodeInfo) : NodeInfo :=
  (ringSuccessor n (candidates n)).head?.getD n

/-- Every node is given the same nodes, which differ in their ids, in any order. -/
structure OnOneRing (nodes : List NodeInfo) (candidates : NodeInfo → List NodeInfo) : Prop where
  ids : (nodes.map NodeInfo.id).Nodup
  several : 2 ≤ nodes.length
  candidates : ∀ n ∈ nodes, (candidates n).Perm nodes

namespace OnOneRing

lemma step (h : OnOneRing nodes candidates) (hn : n ∈ nodes) :
    ringSuccessor n (candidates n) = [next candidates n] ∧ next candidates n ∈ nodes ∧
      rank nodes (next candidates n) = (rank nodes n + 1) % nodes.length := by
  have hring : ringOf (candidates n) = ringOf nodes :=
    ringOf_congr fun m => (h.candidates n hn).mem_iff
  have hlength : (ringOf nodes).length = nodes.length := (ringOf_perm h.ids).length_eq
  have hcandidates : Distinct (candidates n) := fun m hm m' hm' =>
    distinct_of_nodup h.ids m ((h.candidates n hn).mem_iff.mp hm) m'
      ((h.candidates n hn).mem_iff.mp hm')
  have hpicked := ringSuccessor_of_getElem? hcandidates
    (hring ▸ (ringOf_getElem?_iff h.ids).mpr ⟨hn, rfl⟩)
  have hseveral := h.several
  rw [hring, hlength, if_neg (by omega)] at hpicked
  obtain ⟨m, hm⟩ : ∃ m, (ringOf nodes)[(rank nodes n + 1) % nodes.length]? = some m :=
    ⟨_, List.getElem?_eq_getElem (by rw [hlength]; exact Nat.mod_lt _ (by omega))⟩
  have hnext : next candidates n = m := by
    rw [next, hpicked, hm]
    rfl
  rw [hm] at hpicked
  exact ⟨hnext ▸ hpicked, hnext ▸ (ringOf_getElem?_iff h.ids).mp hm⟩

/-- After so many steps the rank has grown by as many, round the ring. -/
lemma iterate (h : OnOneRing nodes candidates) (hn : n ∈ nodes) (k : Nat) :
    (next candidates)^[k] n ∈ nodes ∧
      rank nodes ((next candidates)^[k] n) = (rank nodes n + k) % nodes.length := by
  induction k with
  | zero => exact ⟨hn, (Nat.mod_eq_of_lt (rank_lt_length h.ids hn)).symm⟩
  | succ k ih =>
    obtain ⟨hmem, hrank⟩ := ih
    obtain ⟨-, hmem', hrank'⟩ := h.step hmem
    rw [Function.iterate_succ_apply']
    refine ⟨hmem', ?_⟩
    rw [hrank', hrank, Nat.mod_add_mod, Nat.add_assoc]

lemma iterate_length (h : OnOneRing nodes candidates) (hn : n ∈ nodes) :
    (next candidates)^[nodes.length] n = n := by
  obtain ⟨hmem, hrank⟩ := h.iterate hn nodes.length
  refine eq_of_rank_eq h.ids hmem hn ?_
  rw [hrank, Nat.add_mod_right, Nat.mod_eq_of_lt (rank_lt_length h.ids hn)]

lemma exists_iterate (h : OnOneRing nodes candidates) (hn : n ∈ nodes) (hm : m ∈ nodes) :
    ∃ k < nodes.length, (next candidates)^[k] n = m := by
  have hlt := rank_lt_length h.ids hn
  have hlt' := rank_lt_length h.ids hm
  refine ⟨(rank nodes m + (nodes.length - rank nodes n)) % nodes.length,
    Nat.mod_lt _ (by omega), ?_⟩
  obtain ⟨hmem, hrank⟩ := h.iterate hn
    ((rank nodes m + (nodes.length - rank nodes n)) % nodes.length)
  refine eq_of_rank_eq h.ids hmem hm ?_
  have hround : rank nodes n + (rank nodes m + (nodes.length - rank nodes n)) =
      rank nodes m + nodes.length := by omega
  rw [hrank, Nat.add_mod_mod, hround, Nat.add_mod_right, Nat.mod_eq_of_lt hlt']

lemma bijOn (h : OnOneRing nodes candidates) :
    Set.BijOn (next candidates) {n | n ∈ nodes} {n | n ∈ nodes} := by
  obtain ⟨k, hk⟩ : ∃ k, nodes.length = k + 1 :=
    Nat.exists_eq_succ_of_ne_zero (by have := h.several; omega)
  have hback : ∀ n ∈ nodes, (next candidates)^[k + 1] n = n := fun n hn =>
    hk ▸ h.iterate_length hn
  refine ⟨fun n hn => (h.step hn).2.1, fun n hn m hm heq => ?_, fun n hn => ?_⟩
  · rw [← hback n hn, ← hback m hm, Function.iterate_succ_apply, heq, Function.iterate_succ_apply]
  · refine ⟨(next candidates)^[k] n, (h.iterate hn k).1, ?_⟩
    exact (Function.iterate_succ_apply' (next candidates) k n).symm.trans (hback n hn)

end OnOneRing

/-! ### From outside -/

/-- In the order of ids, nothing is left out but later nodes with an id. -/
lemma sorted_distinct_sortById (ns : List NodeInfo) :
    (distinct (sortById ns)).Pairwise fun n m => Upto n.id m.id :=
  (sorted_sortById ns).sublist (distinct_sublist _)

/-- The node comes after an id, before all candidates that do; or none does, and it comes first. -/
def NextAfter (id : NodeId) (cs : List NodeInfo) (n : NodeInfo) : Prop :=
  Before id n.id ∧ (∀ m ∈ cs, Before id m.id → Upto n.id m.id) ∨
    (∀ m ∈ cs, ¬Before id m.id) ∧ ∀ m ∈ cs, Upto n.id m.id

/-- The first node of the ring whose id comes after that of the local node, or the first of all. -/
lemma mem_ringSuccessor (hring : distinct (sortById (others here cs)) = ring) :
    n ∈ ringSuccessor here cs ↔
      ring.find? (fun m => compare here.id m.id = .lt) = some n ∨
        ring.find? (fun m => compare here.id m.id = .lt) = none ∧ ring.head? = some n := by
  rw [← hring, ringSuccessor, Option.mem_toList, Option.orElse_eq_orElse, Option.orElse_eq_or,
    Option.or_eq_some_iff]

/-- The successor is next to the local node among the others. -/
lemma nextAfter_of_mem_ringSuccessor (hn : n ∈ ringSuccessor here cs) :
    NextAfter here.id (others here cs) n := by
  have hkept : ∀ n ∈ others here cs, ∃ m ∈ distinct (sortById (others here cs)), m.id = n.id :=
    fun n hn => exists_mem_distinct (List.mem_mergeSort.mpr hn)
  have hsorted := sorted_distinct_sortById (others here cs)
  rw [mem_ringSuccessor rfl] at hn
  generalize distinct (sortById (others here cs)) = ring at hn hkept hsorted
  rcases hn with hfind | ⟨hfind, hhead⟩
  · obtain ⟨hafter, before, after, rfl, hnone⟩ := List.find?_eq_some_iff_append.mp hfind
    refine .inl ⟨of_decide_eq_true hafter, fun m hm hb => ?_⟩
    obtain ⟨m', hm', hid⟩ := hkept m hm
    rw [← hid] at hb ⊢
    rcases List.mem_append.mp hm' with hm' | hm'
    · have hnot : ¬compare here.id m'.id = .lt := by simpa using hnone m' hm'
      exact absurd hb hnot
    · rcases List.mem_cons.mp hm' with rfl | hm'
      · exact upto_refl m'.id
      · exact (List.pairwise_cons.mp (List.pairwise_append.mp hsorted).2.1).1 m' hm'
  · obtain ⟨rest, rfl⟩ := List.head?_eq_some_iff.mp hhead
    refine .inr ⟨fun m hm => ?_, fun m hm => ?_⟩ <;> obtain ⟨m', hm', hid⟩ := hkept m hm
    · have hnot : ¬compare here.id m'.id = .lt := by simpa using List.find?_eq_none.mp hfind m' hm'
      rwa [← hid]
    · rw [← hid]
      rcases List.mem_cons.mp hm' with rfl | hm'
      · exact upto_refl m'.id
      · exact (List.pairwise_cons.mp hsorted).1 m' hm'

lemma nextAfter_ringSuccessor (hcs : cs ≠ []) (houtside : ∀ n ∈ cs, n.id ≠ here.id) :
    ∃ n ∈ cs, ringSuccessor here cs = [n] ∧ NextAfter here.id cs n := by
  have hothers : others here cs = cs := by simpa [others] using houtside
  rcases ringSuccessor_cases here cs with ⟨hnone, -⟩ | ⟨n, hn, hpicked⟩
  · exact absurd (hothers.symm.trans hnone) hcs
  · have hnext := nextAfter_of_mem_ringSuccessor (hpicked ▸ List.mem_singleton_self n)
    rw [hothers] at hn hnext
    exact ⟨n, hn, hpicked, hnext⟩

/-- **The successors form one cycle.** Give each of several nodes with ids of their own all of them
as candidates, in an order of its own. Then exactly one node is picked at each, every node is picked
at exactly one, and `k` steps lead from a node of rank `r` to the node of rank `r + k`, round the
ring. So all nodes are visited before one is visited again. A node that is no candidate itself is
followed by the candidate with the least id after its own, or the least of all. -/
theorem successors_form_one_cycle (h : OnOneRing nodes candidates) :
    (∀ n ∈ nodes, ringSuccessor n (candidates n) = [next candidates n]) ∧
    Set.BijOn (next candidates) {n | n ∈ nodes} {n | n ∈ nodes} ∧
    (∀ n ∈ nodes, ∀ k, (next candidates)^[k] n ∈ nodes ∧
      rank nodes ((next candidates)^[k] n) = (rank nodes n + k) % nodes.length) ∧
    (∀ n ∈ nodes, ∀ m ∈ nodes, rank nodes n = rank nodes m → n = m) ∧
    (∀ n ∈ nodes, ∀ m ∈ nodes, ∃ k < nodes.length, (next candidates)^[k] n = m) ∧
    ∀ here cs, cs ≠ [] → (∀ n ∈ cs, n.id ≠ here.id) →
      ∃ n ∈ cs, ringSuccessor here cs = [n] ∧ NextAfter here.id cs n :=
  ⟨fun _ hn => (h.step hn).1, h.bijOn, fun _ hn k => h.iterate hn k,
    fun _ hn _ hm => eq_of_rank_eq h.ids hn hm, fun _ hn _ hm => h.exists_iterate hn hm,
    fun _ _ hcs houtside => nextAfter_ringSuccessor hcs houtside⟩

/-- Three nodes that are not given the candidates in one order, and their ring. -/
theorem three_nodes_in_turn :
    let a : NodeInfo := ⟨"a", "mem://a"⟩
    let b : NodeInfo := ⟨"b", "mem://b"⟩
    let c : NodeInfo := ⟨"c", "mem://c"⟩
    let candidates (n : NodeInfo) := if n = b then [c, b, a] else [a, b, c]
    OnOneRing [a, b, c] candidates ∧
      ringSuccessor c (candidates c) = [a] ∧
      rank [a, b, c] ((next candidates)^[5] b) = 0 ∧
      ∃ n ∈ [a, c], ringSuccessor b [a, c] = [n] ∧ NextAfter "b" [a, c] n := by
  intro a b c candidates
  have hring : OnOneRing [a, b, c] candidates := by
    refine ⟨by decide, by decide, ?_⟩
    have horders : ∀ n ∈ [a, b, c], (candidates n).isPerm [a, b, c] = true := by decide
    exact fun n hn => List.isPerm_iff.mp (horders n hn)
  obtain ⟨hone, -, hsteps, -, -, houtside⟩ := successors_form_one_cycle hring
  have hfirst : ringSuccessor c (candidates c) = [a] := by
    have hsorted : sortById (others c (candidates c)) = [a, b] :=
      List.mergeSort_of_pairwise (by decide)
    rw [ringSuccessor, hsorted]
    decide
  have hrank : rank [a, b, c] b = 1 := by decide
  refine ⟨hring, hfirst, ?_, houtside b [a, c] (by decide) (by decide)⟩
  rw [(hsteps b (by decide) 5).2, hrank]
  decide

end DeltaRing.Selection
