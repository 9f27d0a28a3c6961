import DeltaRing.Wire

/-!
Dots: the identities of mutations.

An actor numbers its mutations from 1, and the pair of its name and the number is the dot of the
mutation. Dots are ordered by actor, then by counter.
-/

namespace DeltaRing

/-- The name under which a replica changes values. -/
abbrev Actor := String

structure Dot where
  actor : Actor
  counter : Nat
deriving DecidableEq

namespace Dot

instance : Key Dot := Key.onto (fun d => (d.actor, d.counter)) fun
  | ⟨_, _⟩, ⟨_, _⟩, h => by simpa using h

instance : Wire Dot where
  toJson d := .object [("actor", toJson d.actor), ("counter", toJson d.counter)]
  ofJson? j := do
    let [actor, counter] ← j.record ["actor", "counter"] | none
    return ⟨← actor.required ofJson?, ← counter.required ofJson?⟩

def display (d : Dot) : String := s!"{d.actor}:{d.counter}"

end Dot

end DeltaRing
