import DeltaRing.Collections.SortedMap

/-!
Finite sets kept as a strictly increasing list.

As with maps, the order is part of the type: equal sets are equal lists, and a set is listed
in increasing order without repetitions.
-/

namespace DeltaRing

/-- A finite set, its members in increasing order. -/
structure SortedSet (α : Type) [Key α] where
  toList : List α
  sorted : toList.Pairwise Key.Before
deriving DecidableEq

namespace SortedSet

variable {α : Type} [Key α]

def empty : SortedSet α := ⟨[], .nil⟩

instance : Inhabited (SortedSet α) := ⟨empty⟩

def isEmpty (s : SortedSet α) : Bool := s.toList.isEmpty

def size (s : SortedSet α) : Nat := s.toList.length

def contains (s : SortedSet α) (a : α) : Bool := s.toList.any fun b => compare a b == .eq

/-- Puts `a` into its place, unless it is there. -/
def insertList (a : α) : List α → List α
  | [] => [a]
  | b :: rest =>
    match compare a b with
    | .lt => a :: b :: rest
    | .eq => b :: rest
    | .gt => b :: insertList a rest

theorem mem_insertList {a b : α} : ∀ {l : List α}, b ∈ insertList a l ↔ b = a ∨ b ∈ l
  | [] => by simp [insertList]
  | c :: rest => by
    simp only [insertList]
    split
    · simp
    · rename_i h
      rw [Key.compare_eq_iff.1 h]
      simp
    · simp only [List.mem_cons, mem_insertList (l := rest)]
      exact or_left_comm

theorem sorted_insertList {a : α} :
    ∀ {l : List α}, l.Pairwise Key.Before → (insertList a l).Pairwise Key.Before
  | [], _ => by simp [insertList]
  | b :: rest, h => by
    have hrest := List.pairwise_cons.1 h
    simp only [insertList]
    split
    · rename_i hab
      refine List.pairwise_cons.2 ⟨fun c hc => ?_, h⟩
      rcases List.mem_cons.1 hc with rfl | hc
      · exact hab
      · exact Key.Before.trans hab (hrest.1 c hc)
    · exact h
    · rename_i hab
      refine List.pairwise_cons.2 ⟨fun c hc => ?_, sorted_insertList hrest.2⟩
      rcases mem_insertList.1 hc with rfl | hc
      · exact Key.compare_gt_iff.1 hab
      · exact hrest.1 c hc

def insert (s : SortedSet α) (a : α) : SortedSet α :=
  ⟨insertList a s.toList, sorted_insertList s.sorted⟩

def filter (s : SortedSet α) (p : α → Bool) : SortedSet α :=
  ⟨s.toList.filter p, s.sorted.filter _⟩

def erase (s : SortedSet α) (a : α) : SortedSet α := s.filter fun b => compare a b != .eq

def insertAll (s : SortedSet α) (l : List α) : SortedSet α := l.foldl insert s

def union (s t : SortedSet α) : SortedSet α := s.insertAll t.toList

/-- The members of `s` that are not in `t`. -/
def diff (s t : SortedSet α) : SortedSet α := s.filter fun a => !t.contains a

def ofList (l : List α) : SortedSet α := empty.insertAll l

end SortedSet

end DeltaRing
