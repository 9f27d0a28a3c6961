import DeltaRing.Collections.Key

/-!
Finite maps kept as a list of entries in strictly increasing key order.

The order is part of the type, so a map has one representation: two maps are equal exactly when
they hold the same entries, and every listing of a map is in key order.
-/

namespace DeltaRing

/-- A finite map, its entries in increasing key order. -/
structure SortedMap (K V : Type) [Key K] where
  entries : List (K × V)
  sorted : entries.Pairwise fun a b => Key.Before a.1 b.1
deriving DecidableEq

namespace SortedMap

variable {K V W : Type} [Key K]

def empty : SortedMap K V := ⟨[], .nil⟩

instance : Inhabited (SortedMap K V) := ⟨empty⟩

def isEmpty (m : SortedMap K V) : Bool := m.entries.isEmpty

def size (m : SortedMap K V) : Nat := m.entries.length

def keys (m : SortedMap K V) : List K := m.entries.map Prod.fst

def values (m : SortedMap K V) : List V := m.entries.map Prod.snd

/-! ### Looking up -/

/-- The value of the first entry under `k`. -/
def find (k : K) : List (K × V) → Option V
  | [] => none
  | (k', v) :: rest => if compare k k' = .eq then some v else find k rest

def get? (m : SortedMap K V) (k : K) : Option V := find k m.entries

def getD (m : SortedMap K V) (k : K) (default : V) : V := (m.get? k).getD default

def contains (m : SortedMap K V) (k : K) : Bool := (m.get? k).isSome

/-! ### Changing one entry -/

/-- Puts `f` of the present value under `k`, keeping the list in order. -/
def alterList (k : K) (f : Option V → V) : List (K × V) → List (K × V)
  | [] => [(k, f none)]
  | (k', v) :: rest =>
    match compare k k' with
    | .lt => (k, f none) :: (k', v) :: rest
    | .eq => (k', f (some v)) :: rest
    | .gt => (k', v) :: alterList k f rest

theorem key_of_mem_alterList {k : K} {f : Option V → V} {e : K × V} :
    ∀ {l : List (K × V)}, e ∈ alterList k f l → e.1 = k ∨ ∃ e' ∈ l, e'.1 = e.1
  | [], h => by
    simp only [alterList, List.mem_singleton] at h
    exact .inl (h ▸ rfl)
  | (k', v) :: rest, h => by
    simp only [alterList] at h
    split at h
    · rcases List.mem_cons.1 h with rfl | h
      · exact .inl rfl
      · exact .inr ⟨e, h, rfl⟩
    · rcases List.mem_cons.1 h with rfl | h
      · exact .inr ⟨(k', v), List.mem_cons_self, rfl⟩
      · exact .inr ⟨e, List.mem_cons_of_mem _ h, rfl⟩
    · rcases List.mem_cons.1 h with rfl | h
      · exact .inr ⟨(k', v), List.mem_cons_self, rfl⟩
      · rcases key_of_mem_alterList h with h | ⟨e', h, he⟩
        · exact .inl h
        · exact .inr ⟨e', List.mem_cons_of_mem _ h, he⟩

theorem sorted_alterList {k : K} {f : Option V → V} :
    ∀ {l : List (K × V)}, (l.Pairwise fun a b => Key.Before a.1 b.1) →
      (alterList k f l).Pairwise fun a b => Key.Before a.1 b.1
  | [], _ => by simp [alterList]
  | (k', v) :: rest, h => by
    have hrest := List.pairwise_cons.1 h
    simp only [alterList]
    split
    · rename_i hk
      refine List.pairwise_cons.2 ⟨fun e he => ?_, h⟩
      rcases List.mem_cons.1 he with rfl | he
      · exact hk
      · exact Key.Before.trans hk (hrest.1 e he)
    · exact List.pairwise_cons.2 ⟨fun e he => hrest.1 e he, hrest.2⟩
    · rename_i hk
      refine List.pairwise_cons.2 ⟨fun e he => ?_, sorted_alterList hrest.2⟩
      rcases key_of_mem_alterList he with he | ⟨e', he', heq⟩
      · exact he ▸ Key.compare_gt_iff.1 hk
      · exact heq ▸ hrest.1 e' he'

/-- Puts `f` of the value found under `k` (or of nothing) under `k`. -/
def alter (m : SortedMap K V) (k : K) (f : Option V → V) : SortedMap K V :=
  ⟨alterList k f m.entries, sorted_alterList m.sorted⟩

def insert (m : SortedMap K V) (k : K) (v : V) : SortedMap K V := m.alter k fun _ => v

/-! ### Keeping and mapping entries -/

def filter (m : SortedMap K V) (p : K → V → Bool) : SortedMap K V :=
  ⟨m.entries.filter fun e => p e.1 e.2, m.sorted.filter _⟩

def erase (m : SortedMap K V) (k : K) : SortedMap K V :=
  m.filter fun k' _ => compare k k' != .eq

def map (m : SortedMap K V) (f : K → V → W) : SortedMap K W :=
  ⟨m.entries.map fun e => (e.1, f e.1 e.2), List.pairwise_map.2 m.sorted⟩

/-- Changes the value under `k`, if there is one. -/
def modify (m : SortedMap K V) (k : K) (f : V → V) : SortedMap K V :=
  m.map fun k' v => if compare k k' = .eq then f v else v

/-- A later entry replaces an earlier one under the same key. -/
def ofList (l : List (K × V)) : SortedMap K V := l.foldl (fun m e => m.insert e.1 e.2) empty

end SortedMap

end DeltaRing
