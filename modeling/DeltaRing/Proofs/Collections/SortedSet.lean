import DeltaRing.Collections.SortedSet
import Mathlib.Data.List.Basic
import Mathlib.Tactic.Common

/-!
Sorted sets through their members.

A sorted set is determined by its members, and every operation is known by what it does to
them. After this module nobody looks at the list.
-/

namespace DeltaRing

namespace SortedSet

variable {α : Type} [Key α] {s t : SortedSet α} {a b : α}

instance : Membership α (SortedSet α) := ⟨fun s a => a ∈ s.toList⟩

@[simp] lemma mem_toList : a ∈ s.toList ↔ a ∈ s := Iff.rfl

lemma nodup_toList (s : SortedSet α) : s.toList.Nodup := s.sorted.imp Key.Before.ne

@[simp] lemma contains_iff : s.contains a = true ↔ a ∈ s := by
  simp only [contains, List.any_eq_true, beq_iff_eq, Key.compare_eq_iff, mem_toList]
  exact ⟨fun ⟨b, hb, h⟩ => h ▸ hb, fun h => ⟨a, h, rfl⟩⟩

@[simp] lemma contains_eq_false_iff : s.contains a = false ↔ a ∉ s := by
  rw [← contains_iff, Bool.not_eq_true]

/-- A set has one representation. -/
@[ext] lemma ext (h : ∀ a, a ∈ s ↔ a ∈ t) : s = t := by
  obtain ⟨l, hl⟩ := s
  obtain ⟨l', hl'⟩ := t
  have hp : l.Perm l' := by
    refine (List.perm_ext_iff_of_nodup ?_ ?_).mpr h
    · exact hl.imp Key.Before.ne
    · exact hl'.imp Key.Before.ne
  have : l = l' := hp.eq_of_pairwise (fun a b _ _ h h' => absurd h' h.asymm) hl hl'
  subst this
  rfl

@[simp] lemma not_mem_empty : a ∉ (empty : SortedSet α) := by simp [← mem_toList, empty]

@[simp] lemma mem_insert : b ∈ s.insert a ↔ b = a ∨ b ∈ s := mem_insertList

@[simp] lemma mem_filter {p : α → Bool} : a ∈ s.filter p ↔ a ∈ s ∧ p a = true :=
  List.mem_filter

@[simp] lemma mem_diff : a ∈ s.diff t ↔ a ∈ s ∧ a ∉ t := by
  simp [diff]

@[simp] lemma mem_insertAll {l : List α} : a ∈ s.insertAll l ↔ a ∈ s ∨ a ∈ l := by
  induction l generalizing s with
  | nil => simp [insertAll]
  | cons b l ih =>
    rw [insertAll, List.foldl_cons, ← insertAll, ih, mem_insert, List.mem_cons]
    tauto

@[simp] lemma mem_union : a ∈ s.union t ↔ a ∈ s ∨ a ∈ t := mem_insertAll

@[simp] lemma mem_ofList {l : List α} : a ∈ ofList l ↔ a ∈ l := by simp [ofList]

@[simp] lemma ofList_toList (s : SortedSet α) : ofList s.toList = s := by
  ext a
  simp

@[simp] lemma isEmpty_iff : s.isEmpty = true ↔ s = empty := by
  rw [isEmpty, List.isEmpty_iff]
  constructor
  · intro h
    ext a
    simp [← mem_toList, h, empty]
  · rintro rfl
    rfl

@[simp] lemma isEmpty_eq_false_iff : s.isEmpty = false ↔ s ≠ empty := by
  rw [← Bool.not_eq_true, isEmpty_iff]

lemma exists_mem_of_ne_empty (h : s ≠ empty) : ∃ a, a ∈ s := by
  by_contra hc
  exact h (ext fun a => ⟨fun ha => absurd ⟨a, ha⟩ hc, fun ha => absurd ha not_mem_empty⟩)

/-! ### Operations that change nothing -/

lemma diff_self : s.diff s = empty := by
  ext a
  simp

lemma diff_of_disjoint (h : ∀ a ∈ s, a ∉ t) : s.diff t = s := by
  ext a
  simpa using h a

end SortedSet

end DeltaRing
