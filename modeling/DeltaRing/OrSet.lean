import DeltaRing.Delta

/-!
Observed-remove sets.

Every addition mints a dot, and a removal tombstones exactly the dots of the item that its
replica has observed. An addition that a remover has not observed survives the removal. The
removals are kept, so that they can be handed on like the additions.
-/

namespace DeltaRing

inductive OrSetDelta (α : Type) where
  | add (dot : Dot) (item : α)
  | remove (dot : Dot) (tombstones : SortedSet Dot)
deriving DecidableEq

inductive OrSetOperation (α : Type) where
  | add (item : α)
  | remove (item : α)
deriving DecidableEq

namespace OrSetDelta

variable {α : Type}

def dot : OrSetDelta α → Dot
  | add dot _ => dot
  | remove dot _ => dot

/-- All dots that the delta makes known. -/
def dots : OrSetDelta α → List Dot
  | add dot _ => [dot]
  | remove dot tombstones => dot :: tombstones.toList

/-- A context reflects a delta that it knows the dot of. -/
instance : CausalTimestamp CausalContext (OrSetDelta α) where
  reflects c δ := c.contains δ.dot
  observe c δ := c.insertAll δ.dots

/-- Reads a delta whose variant is read by `variant`. -/
def ofTagged? [Wire α] (variant : Json → Option String) (j : Json) : Option (OrSetDelta α) := do
  match ← j.tagged "kind" variant with
  | ("add", rest) =>
    let [dot, item] ← rest.record ["dot", "item"] | none
    return .add (← dot.required ofInner?) (← item.required ofInner?)
  | ("remove", rest) =>
    let [dot, tombstones] ← rest.record ["dot", "tombstones"] | none
    return .remove (← dot.required ofInner?) (← tombstones.required ofInner?)
  | _ => none

instance [Wire α] : Wire (OrSetDelta α) where
  toJson
    | add dot item => .object [("kind", .text "add"), ("dot", toJson dot), ("item", toJson item)]
    | remove dot tombstones =>
      .object [("kind", .text "remove"), ("dot", toJson dot), ("tombstones", toJson tombstones)]
  ofJson? := ofTagged? Json.asText
  ofInner? := ofTagged? (Json.asVariant ["add", "remove"])

end OrSetDelta

namespace OrSetOperation

variable {α : Type}

def item : OrSetOperation α → α
  | add item => item
  | remove item => item

/-- Reads an operation whose variant is read by `variant`. -/
def ofTagged? [Wire α] (variant : Json → Option String) (j : Json) : Option (OrSetOperation α) := do
  match ← j.tagged "op" variant with
  | ("add", rest) =>
    let [item] ← rest.record ["item"] | none
    return .add (← item.required ofInner?)
  | ("remove", rest) =>
    let [item] ← rest.record ["item"] | none
    return .remove (← item.required ofInner?)
  | _ => none

instance [Wire α] : Wire (OrSetOperation α) where
  toJson
    | add item => .object [("op", .text "add"), ("item", toJson item)]
    | remove item => .object [("op", .text "remove"), ("item", toJson item)]
  ofJson? := ofTagged? Json.asText
  ofInner? := ofTagged? (Json.asVariant ["add", "remove"])

end OrSetOperation

structure OrSet (α : Type) [Key α] where
  /-- The live dots of every item. -/
  entries : SortedMap α (SortedSet Dot)
  /-- What each removal tombstoned, by the removal's dot. -/
  removals : SortedMap Dot (SortedSet Dot)
  /-- The dots of all additions, removals and tombstones seen. -/
  context : CausalContext
deriving DecidableEq

namespace OrSet

variable {α : Type} [Key α]

def empty : OrSet α := ⟨.empty, .empty, .empty⟩

/-- Makes `dot` live under `item`. -/
def enter (s : OrSet α) (dot : Dot) (item : α) : OrSet α :=
  { s with
    entries := s.entries.alter item fun dots => (dots.getD .empty).insert dot
    context := s.context.insert dot }

/-- Adds an item under a dot. -/
def addAs (s : OrSet α) (dot : Dot) (item : α) : OrSet α × OrSetDelta α :=
  (s.enter dot item, .add dot item)

/-- Adds an item under a fresh dot of the actor. -/
def add (s : OrSet α) (actor : Actor) (item : α) : OrSet α × OrSetDelta α :=
  s.addAs (s.context.nextDot actor) item

/-- Removes all observed instances of an item under a dot; nothing happens where none was
observed. -/
def removeAs (s : OrSet α) (dot : Dot) (item : α) : OrSet α × Option (OrSetDelta α) :=
  match s.entries.get? item with
  | none => (s, none)
  | some tombstones =>
    let s := { s with entries := s.entries.erase item }
    if tombstones.isEmpty then (s, none)
    else
      ({ s with
          removals := s.removals.insert dot tombstones
          context := s.context.insert dot },
        some (.remove dot tombstones))

/-- Removes an item under a fresh dot of the actor. -/
def remove (s : OrSet α) (actor : Actor) (item : α) : OrSet α × Option (OrSetDelta α) :=
  s.removeAs (s.context.nextDot actor) item

/-- Takes the tombstoned dots off every item, and the items without dots out of the set. -/
def bury (entries : SortedMap α (SortedSet Dot)) (tombstones : SortedSet Dot) :
    SortedMap α (SortedSet Dot) :=
  (entries.map fun _ dots => dots.diff tombstones).filter fun _ dots => !dots.isEmpty

def merge (s : OrSet α) (δ : OrSetDelta α) : OrSet α × MergeResult :=
  if s.context.contains δ.dot then (s, .unchanged)
  else
    match δ with
    | .add dot item => (s.enter dot item, .updated)
    | .remove dot tombstones =>
      ({ entries := bury s.entries tombstones
         removals := s.removals.insert dot tombstones
         context := s.context.insertAll δ.dots },
        .updated)

/-- Removals first, by their dots, then the live additions, by item and dot. -/
def deltasSince (s : OrSet α) (since : Option CausalContext) : List (OrSetDelta α) :=
  let unseen (dot : Dot) : Bool := !since.any fun c => c.contains dot
  let removes := s.removals.entries.filterMap fun (dot, tombstones) =>
    if unseen dot then some (.remove dot tombstones) else none
  let adds := s.entries.entries.flatMap fun (item, dots) =>
    (dots.toList.filter unseen).map fun dot => .add dot item
  removes ++ adds

instance : DeltaCrdt (OrSet α) (OrSetDelta α) CausalContext where
  initial := empty
  merge := merge
  timestamp s := s.context
  deltasSince := deltasSince
  sizeEstimate s := total (s.entries.values.map SortedSet.size) + s.removals.size

/-- Applies an operation under a dot. The answer says whether it changed anything. -/
def applyAs (s : OrSet α) (dot : Dot) : OrSetOperation α → OrSet α × Bool × List (OrSetDelta α)
  | .add item => let (s, δ) := s.addAs dot item; (s, true, [δ])
  | .remove item => let (s, δ?) := s.removeAs dot item; (s, δ?.isSome, δ?.toList)

instance : Operable (OrSet α) (OrSetDelta α) (OrSetOperation α) Bool α where
  apply s actor := s.applyAs (s.context.nextDot actor)
  applyInWords s actor := s.applyAs (s.context.nextWordDot actor)
  operationKey := OrSetOperation.item

/-! ### Reading -/

def contains (s : OrSet α) (item : α) : Bool :=
  (s.entries.get? item).any fun dots => !dots.isEmpty

/-- The items in order. -/
def items (s : OrSet α) : List α := s.entries.keys

def size (s : OrSet α) : Nat := s.entries.size

def isEmpty (s : OrSet α) : Bool := s.entries.isEmpty

end OrSet

end DeltaRing
