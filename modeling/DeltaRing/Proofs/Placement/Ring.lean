import DeltaRing.Placement
import Mathlib.Data.List.Pairwise
import Mathlib.Tactic.Common

/-!
The ring of a list of nodes depends on who is in the list, and on nothing else.

The ring holds every id once, in order, with the least address that the list gives for it. So two
lists with the same nodes have one ring, however they are arranged and whatever they repeat.
-/

namespace DeltaRing

namespace Key

variable {α : Type} [Key α] {a b c : α}

/-- `a` does not come after `b`. -/
abbrev Upto (a b : α) : Prop := (compare a b).isLE = true

lemma upto_total (a b : α) : Upto a b ∨ Upto b a := by
  have hswap : compare b a = (compare a b).swap := Std.OrientedCmp.eq_swap
  rw [Upto, Upto, hswap, Ordering.isLE_swap]
  cases compare a b <;> simp

lemma upto_refl (a : α) : Upto a a := by simp [Upto]

lemma Upto.antisymm (h : Upto a b) (h' : Upto b a) : a = b :=
  compare_eq_iff.mp (Std.OrientedCmp.isLE_antisymm h h')

lemma Upto.before_of_ne (h : Upto a b) (hne : a ≠ b) : Before a b := by
  rcases Ordering.isLE_iff_eq_lt_or_eq_eq.mp h with hlt | heq
  · exact hlt
  · exact absurd (compare_eq_iff.mp heq) hne

end Key

open Key

namespace Selection

variable {ns : List NodeInfo} {n m : NodeInfo} {last : NodeId}

lemma upto_id (h : Upto n m) : Upto n.id m.id := by
  have hc : compare n m = (compare n.id m.id).then (compare n.address m.address) := rfl
  unfold Upto at h ⊢
  rw [hc] at h
  cases hid : compare n.id m.id <;> simp_all

lemma sort_perm (ns : List NodeInfo) : (sort ns).Perm ns := List.mergeSort_perm _ _

lemma mem_sort : n ∈ sort ns ↔ n ∈ ns := (sort_perm ns).mem_iff

lemma sorted_sort (ns : List NodeInfo) : (sort ns).Pairwise Upto := by
  refine List.pairwise_mergeSort (fun a b c => ?_) (fun a b => ?_) ns
  · exact Std.TransCmp.isLE_trans
  · simpa using upto_total a b

/-- In a sorted list the ids that are kept have their least nodes kept. -/
lemma mem_distinctAfter (hs : ns.Pairwise Upto) (hlast : ∀ m ∈ ns, Upto last m.id) :
    n ∈ distinctAfter last ns ↔ n ∈ ns ∧ n.id ≠ last ∧ ∀ m ∈ ns, m.id = n.id → Upto n m := by
  induction ns generalizing last with
  | nil => simp [distinctAfter]
  | cons a rest ih =>
    obtain ⟨ha, hs⟩ := List.pairwise_cons.mp hs
    rw [distinctAfter]
    split
    · rename_i hid
      rw [ih hs fun m hm => hlast m (List.mem_cons_of_mem a hm)]
      simp only [List.mem_cons, forall_eq_or_imp]
      constructor
      · exact fun ⟨hn, hne, hmin⟩ => ⟨.inr hn, hne, fun h => absurd (h ▸ hid) hne, hmin⟩
      · rintro ⟨rfl | hn, hne, -, hmin⟩
        · exact absurd hid hne
        · exact ⟨hn, hne, hmin⟩
    · rename_i hid
      rw [List.mem_cons, ih hs fun m hm => upto_id (ha m hm)]
      simp only [List.mem_cons, forall_eq_or_imp]
      constructor
      · rintro (rfl | ⟨hn, hne, hmin⟩)
        · exact ⟨.inl rfl, hid, fun _ => upto_refl _, fun m hm _ => ha m hm⟩
        · refine ⟨.inr hn, ?_, fun h => absurd h.symm hne, hmin⟩
          -- `last` stands before `a`, and `a` before `n`
          rintro rfl
          exact hne ((upto_id (ha n hn)).antisymm (hlast a (by simp))).symm
      · rintro ⟨rfl | hn, hne, ha', hmin⟩
        · exact .inl rfl
        · by_cases h : a.id = n.id
          · exact .inl ((ha' h).antisymm (ha n hn))
          · exact .inr ⟨hn, Ne.symm h, hmin⟩

lemma sorted_distinctAfter (hs : ns.Pairwise Upto) (hlast : ∀ m ∈ ns, Upto last m.id) :
    (distinctAfter last ns).Pairwise fun n m => Before n.id m.id := by
  induction ns generalizing last with
  | nil => exact .nil
  | cons a rest ih =>
    obtain ⟨ha, hs⟩ := List.pairwise_cons.mp hs
    have hrest : ∀ m ∈ rest, Upto a.id m.id := fun m hm => upto_id (ha m hm)
    rw [distinctAfter]
    split
    · exact ih hs fun m hm => hlast m (List.mem_cons_of_mem a hm)
    · refine List.pairwise_cons.mpr ⟨fun m hm => ?_, ih hs hrest⟩
      obtain ⟨hm, hne, -⟩ := (mem_distinctAfter hs hrest).mp hm
      exact (hrest m hm).before_of_ne hne.symm

end Selection

namespace Placement

open Selection

variable {ns ns' : List NodeInfo} {n : NodeInfo}

lemma mem_ringOf : n ∈ ringOf ns ↔ n ∈ ns ∧ ∀ m ∈ ns, m.id = n.id → Upto n m := by
  have hs := sorted_sort ns
  have hmem : ∀ m, m ∈ sort ns ↔ m ∈ ns := fun m => mem_sort
  rw [ringOf]
  revert hs hmem
  generalize sort ns = l
  intro hs hmem
  simp only [← hmem]
  cases l with
  | nil => simp [distinct]
  | cons a rest =>
    obtain ⟨ha, hs⟩ := List.pairwise_cons.mp hs
    rw [distinct, List.mem_cons, mem_distinctAfter hs fun m hm => upto_id (ha m hm)]
    simp only [List.mem_cons, forall_eq_or_imp]
    constructor
    · rintro (rfl | ⟨hn, hne, hmin⟩)
      · exact ⟨.inl rfl, fun _ => upto_refl _, fun m hm _ => ha m hm⟩
      · exact ⟨.inr hn, fun h => absurd h.symm hne, hmin⟩
    · rintro ⟨rfl | hn, ha', hmin⟩
      · exact .inl rfl
      · by_cases h : a.id = n.id
        · exact .inl ((ha' h).antisymm (ha n hn))
        · exact .inr ⟨hn, Ne.symm h, hmin⟩

lemma sorted_ringOf (ns : List NodeInfo) : (ringOf ns).Pairwise fun n m => Before n.id m.id := by
  have hs := sorted_sort ns
  rw [ringOf]
  revert hs
  generalize sort ns = l
  intro hs
  cases l with
  | nil => exact .nil
  | cons a rest =>
    obtain ⟨ha, hs⟩ := List.pairwise_cons.mp hs
    have hrest : ∀ m ∈ rest, Upto a.id m.id := fun m hm => upto_id (ha m hm)
    refine List.pairwise_cons.mpr ⟨fun m hm => ?_, sorted_distinctAfter hs hrest⟩
    obtain ⟨hm, hne, -⟩ := (mem_distinctAfter hs hrest).mp hm
    exact (hrest m hm).before_of_ne hne.symm

/-- In the order of ids nodes can stand in one way only. -/
lemma eq_of_sorted (hs : ns.Pairwise fun n m => Before n.id m.id)
    (hs' : ns'.Pairwise fun n m => Before n.id m.id) (h : ∀ n, n ∈ ns ↔ n ∈ ns') : ns = ns' := by
  have hnodup : ∀ {l : List NodeInfo}, (l.Pairwise fun n m => Before n.id m.id) → l.Nodup :=
    fun hl => hl.imp fun hb heq => hb.ne (congrArg NodeInfo.id heq)
  have hperm := (List.perm_ext_iff_of_nodup (hnodup hs) (hnodup hs')).mpr h
  exact hperm.eq_of_pairwise (fun _ _ _ _ hb hb' => absurd hb' hb.asymm) hs hs'

/-- **The ring is a function of the set of nodes.** -/
theorem ringOf_congr (h : ∀ n, n ∈ ns ↔ n ∈ ns') : ringOf ns = ringOf ns' :=
  eq_of_sorted (sorted_ringOf ns) (sorted_ringOf ns') fun n => by simp only [mem_ringOf, h]

end Placement

end DeltaRing
