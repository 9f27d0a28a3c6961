/-!
Join semilattices and the order that a join gives.

Causal timestamps form one: joining two timestamps gives the timestamp of a replica that has
merged everything either of them stands for.
-/

namespace DeltaRing

class Lattice (T : Type) where
  bottom : T
  join : T → T → T

namespace Lattice

variable {T : Type} [Lattice T] [DecidableEq T]

/-- How two elements stand to each other, read off their join. -/
def compare? (a b : T) : Option Ordering :=
  let joined := join a b
  if joined = a ∧ joined = b then some .eq
  else if joined = b then some .lt
  else if joined = a then some .gt
  else none

def leq (a b : T) : Bool :=
  match compare? a b with
  | some .lt | some .eq => true
  | _ => false

/-- An element is below another if joining them gives the other. -/
theorem leq_iff {a b : T} : leq a b = true ↔ join a b = b := by
  simp only [leq, compare?]
  generalize join a b = joined
  by_cases hb : joined = b
  · subst hb
    by_cases ha : joined = a <;> simp [ha]
  · simp only [hb, and_false, if_false, iff_false]
    by_cases ha : joined = a <;> simp only [ha, if_true, if_false] <;> decide

end Lattice

end DeltaRing
