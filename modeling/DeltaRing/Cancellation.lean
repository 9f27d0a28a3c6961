import DeltaRing.OperationContext
import DeltaRing.Collections.SortedMap

/-!
Which operations a cancellation reaches.

A context made for a call belongs to the context it was made from, and a cancellation reaches all
contexts that belong to the cancelled one, at whatever remove. A detached context belongs to none.
-/

namespace DeltaRing

/-- Contexts under names. -/
structure OpenContexts where
  /-- Every context with its lineage: its own number, then those of the contexts it belongs to. -/
  slots : SortedMap String (OperationContext × List Nat)
  /-- How many contexts have been opened. -/
  opened : Nat
  /-- The numbers of the contexts that were cancelled themselves. -/
  stopped : List Nat

namespace OpenContexts

def empty : OpenContexts := ⟨.empty, 0, []⟩

/-- A context whose lineage contains a cancelled one is cancelled. -/
def get? (s : OpenContexts) (name : String) : Option OperationContext :=
  (s.slots.get? name).map fun (c, lineage) => { c with cancelled := lineage.any s.stopped.contains }

def lineage (s : OpenContexts) (name : String) : List Nat := (s.slots.get? name).elim [] Prod.snd

/-- Puts a context that belongs to the given ones under a name. -/
def put (s : OpenContexts) (name : String) (c : OperationContext) (outer : List Nat) :
    OpenContexts :=
  { s with slots := s.slots.insert name (c, s.opened :: outer), opened := s.opened + 1 }

/-- A context that belongs to none. -/
def enter (s : OpenContexts) (name : String) (c : OperationContext) : OpenContexts := s.put name c []

/-- A context that belongs to the one called `outer`. -/
def nest (s : OpenContexts) (name : String) (c : OperationContext) (outer : String) :
    OpenContexts :=
  s.put name c (s.lineage outer)

def cancel (s : OpenContexts) (name : String) : OpenContexts :=
  { s with stopped := (s.lineage name).take 1 ++ s.stopped }

end OpenContexts

end DeltaRing
