import DeltaRing.Proofs.Placement.Selection

/-!
Following successors visits every node.

Where ids tell candidates apart, the successor of a node is its right neighbour on their ring, and
the first node of the ring follows the last. So who is next depends neither on the order in which
the candidates are given nor on how often they are repeated.
-/

namespace DeltaRing.Selection

open Key Placement

variable {here n : NodeInfo} {cs ns ring before after : List NodeInfo}

lemma sorted_sortById (ns : List NodeInfo) :
    (sortById ns).Pairwise fun n m => Upto n.id m.id :=
  List.pairwise_mergeSort (fun a b c => Std.TransCmp.isLE_trans)
    (fun a b => by simpa using upto_total a.id b.id) ns

def Distinct (ns : List NodeInfo) : Prop := ∀ n ∈ ns, ∀ m ∈ ns, n.id = m.id → n = m

/-- Where ids differ, ordering nodes by their ids alone is ordering them. -/
lemma sortById_eq_sort (hns : Distinct ns) : sortById ns = sort ns := by
  have hperm : (sortById ns).Perm (sort ns) :=
    (List.mergeSort_perm ns _).trans (List.mergeSort_perm ns _).symm
  have hsorted : (sort ns).Pairwise fun n m => Upto n.id m.id := (sorted_sort ns).imp upto_id
  refine hperm.eq_of_pairwise (fun n m hn hm h h' => ?_) (sorted_sortById ns) hsorted
  exact hns n (List.mem_mergeSort.mp hn) m (mem_sort.mp hm) (h.antisymm h')

lemma mem_ringOf_of_distinct (hns : Distinct ns) : n ∈ ringOf ns ↔ n ∈ ns := by
  rw [mem_ringOf]
  refine ⟨And.left, fun hn => ⟨hn, fun m hm hid => ?_⟩⟩
  rw [hns m hm n hn hid]
  exact upto_refl n

lemma Distinct.others (hcs : Distinct cs) : Distinct (others here cs) := fun n hn m hm =>
  hcs n (mem_others.mp hn).1 m (mem_others.mp hm).1

lemma ringOf_others (hcs : Distinct cs) (hring : ringOf cs = before ++ here :: after) :
    ringOf (others here cs) = before ++ after := by
  have hsorted := hring ▸ sorted_ringOf cs
  have hsub : (before ++ after).Sublist (before ++ here :: after) :=
    (List.sublist_cons_self here after).append_left before
  refine eq_of_sorted (sorted_ringOf _) (hsorted.sublist hsub) fun n => ?_
  rw [List.pairwise_append, List.pairwise_cons] at hsorted
  rw [mem_ringOf_of_distinct hcs.others, mem_others, ← mem_ringOf_of_distinct hcs, hring]
  simp only [List.mem_append, List.mem_cons]
  constructor
  · rintro ⟨hn | rfl | hn, hne⟩
    · exact .inl hn
    · exact absurd rfl hne
    · exact .inr hn
  · rintro (hn | hn)
    · exact ⟨.inl hn, (hsorted.2.2 n hn here List.mem_cons_self).ne⟩
    · exact ⟨.inr (.inr hn), (hsorted.2.1.1 n hn).ne.symm⟩

/-- The successor stands right of the local node, or first if nobody does. -/
lemma ringSuccessor_eq (hcs : Distinct cs) (hring : ringOf cs = before ++ here :: after) :
    ringSuccessor here cs = (after.head? <|> before.head?).toList := by
  have hsorted := sorted_ringOf cs
  rw [hring, List.pairwise_append, List.pairwise_cons] at hsorted
  have hbefore : before.find? (fun n => compare here.id n.id = .lt) = none := by
    refine List.find?_eq_none.mpr fun n hn => ?_
    have hb : Before n.id here.id := hsorted.2.2 n hn here List.mem_cons_self
    exact decide_eq_true_iff.not.mpr hb.asymm
  have hafter : after.find? (fun n => compare here.id n.id = .lt) = after.head? := by
    cases after with
    | nil => rfl
    | cons n after =>
      have hb : compare here.id n.id = .lt := hsorted.2.1.1 n List.mem_cons_self
      rw [List.find?_cons_of_pos (by simpa using hb), List.head?_cons]
  have hdistinct : distinct (sortById (others here cs)) = before ++ after := by
    rw [sortById_eq_sort hcs.others]
    exact ringOf_others hcs hring
  simp only [ringSuccessor, hdistinct, List.find?_append, hbefore, hafter, Option.none_or]
  cases after with
  | nil => simp
  | cons n after => simp

/-- **The successor is the next node on the ring**, if there is more than one. -/
theorem ringSuccessor_of_getElem? {k : Nat} (hcs : Distinct cs)
    (hk : (ringOf cs)[k]? = some here) :
    ringSuccessor here cs =
      if (ringOf cs).length = 1 then []
      else ((ringOf cs)[(k + 1) % (ringOf cs).length]?).toList := by
  obtain ⟨before, after, hring, hlength⟩ :
      ∃ before after, ringOf cs = before ++ here :: after ∧ before.length = k := by
    obtain ⟨hlt, hget⟩ := List.getElem?_eq_some_iff.mp hk
    refine ⟨(ringOf cs).take k, (ringOf cs).drop (k + 1), ?_,
      List.length_take_of_le (Nat.le_of_lt hlt)⟩
    rw [← hget, List.getElem_cons_drop, List.take_append_drop]
  rw [ringSuccessor_eq hcs hring, hring]
  subst hlength
  cases after with
  | cons n after =>
    have hlt : before.length + 1 < (before ++ here :: n :: after).length := by simp
    rw [if_neg (by simp; omega), Nat.mod_eq_of_lt hlt, List.getElem?_append_right (by omega)]
    simp
  | nil =>
    have hlength : (before ++ [here]).length = before.length + 1 := by simp
    rw [hlength, Nat.mod_self]
    cases before with
    | nil => rfl
    | cons n before => simp

end DeltaRing.Selection
