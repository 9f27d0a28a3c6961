import DeltaRing.Delta

/-!
Observed-remove maps.

The presence of a key follows the rules of an observed-remove set: every mutation of the key mints
a dot, and removing the key tombstones the dots that the remover has observed. Each key owns a
replicated value, whose deltas travel tagged with the key. A removed key is hidden but keeps its
value, and a later or concurrent mutation brings the key back with everything merged so far.
-/

namespace DeltaRing

inductive OrMapDelta (K D : Type) where
  | add (key : K) (dot : Dot)
  | value (key : K) (delta : D)
  | remove (key : K) (dot : Dot) (tombstones : SortedSet Dot)
deriving DecidableEq

inductive OrMapOperation (K O : Type) where
  | mutate (key : K) (op : O)
  | remove (key : K)
deriving DecidableEq

inductive OrMapOutput (R : Type) where
  | mutated (output : R)
  /-- Whether the key was present. -/
  | removed (present : Bool)
deriving DecidableEq

/-- A timestamp for the presence of keys, and one for the value under every key. -/
structure MapTimestamp (K T : Type) [Key K] where
  keys : CausalContext
  values : SortedMap K T
deriving DecidableEq

/-- The live dots of a key, none while the key is hidden, and its value. -/
structure OrMapEntry (V : Type) where
  dots : SortedSet Dot
  value : V
deriving DecidableEq

structure OrMap (K V : Type) [Key K] where
  entries : SortedMap K (OrMapEntry V)
  /-- The key and the tombstones of every removal, by its dot. -/
  removals : SortedMap Dot (K × SortedSet Dot)
  /-- The dots of all mutations, removals and tombstones of keys seen. -/
  context : CausalContext
deriving DecidableEq

variable {K V D T O R : Type}

namespace OrMapDelta

def key : OrMapDelta K D → K
  | add key _ => key
  | value key _ => key
  | remove key _ _ => key

/-- Reads a delta whose variant is read by `variant`. -/
def ofTagged? [Wire K] [Wire D] (variant : Json → Option String) (j : Json) :
    Option (OrMapDelta K D) := do
  match ← j.tagged "kind" variant with
  | ("add", rest) =>
    let [key, dot] ← rest.record ["key", "dot"] | none
    return .add (← key.required ofInner?) (← dot.required ofInner?)
  | ("value", rest) =>
    let [key, delta] ← rest.record ["key", "delta"] | none
    return .value (← key.required ofInner?) (← delta.required ofInner?)
  | ("remove", rest) =>
    let [key, dot, tombstones] ← rest.record ["key", "dot", "tombstones"] | none
    return .remove (← key.required ofInner?) (← dot.required ofInner?)
      (← tombstones.required ofInner?)
  | _ => none

instance [Wire K] [Wire D] : Wire (OrMapDelta K D) where
  toJson
    | add key dot => .object [("kind", .text "add"), ("key", toJson key), ("dot", toJson dot)]
    | value key delta =>
      .object [("kind", .text "value"), ("key", toJson key), ("delta", toJson delta)]
    | remove key dot tombstones => .object
        [("kind", .text "remove"), ("key", toJson key), ("dot", toJson dot),
          ("tombstones", toJson tombstones)]
  ofJson? := ofTagged? Json.asText
  ofInner? := ofTagged? (Json.asVariant ["add", "value", "remove"])

end OrMapDelta

namespace OrMapOperation

def key : OrMapOperation K O → K
  | mutate key _ => key
  | remove key => key

/-- Reads an operation whose variant is read by `variant`. -/
def ofTagged? [Wire K] [Wire O] (variant : Json → Option String) (j : Json) :
    Option (OrMapOperation K O) := do
  match ← j.tagged "kind" variant with
  | ("mutate", rest) =>
    let [key, op] ← rest.record ["key", "op"] | none
    return .mutate (← key.required ofInner?) (← op.required ofInner?)
  | ("remove", rest) =>
    let [key] ← rest.record ["key"] | none
    return .remove (← key.required ofInner?)
  | _ => none

instance [Wire K] [Wire O] : Wire (OrMapOperation K O) where
  toJson
    | mutate key op => .object [("kind", .text "mutate"), ("key", toJson key), ("op", toJson op)]
    | remove key => .object [("kind", .text "remove"), ("key", toJson key)]
  ofJson? := ofTagged? Json.asText
  ofInner? := ofTagged? (Json.asVariant ["mutate", "remove"])

end OrMapOperation

instance [Wire R] : Wire (OrMapOutput R) where
  toJson
    | .mutated output => .object [("mutated", toJson output)]
    | .removed present => .object [("removed", toJson present)]
  ofJson?
    | .object [("mutated", j)] => (ofJson? j).map .mutated
    | .object [("removed", j)] => (ofJson? j).map .removed
    | _ => none

namespace MapTimestamp

variable [Key K]

def empty : MapTimestamp K T := ⟨.empty, .empty⟩

/-- Keys are joined as contexts, and the timestamps of a key that both sides know are joined. -/
def join [Lattice T] (t other : MapTimestamp K T) : MapTimestamp K T where
  keys := t.keys.merge other.keys
  values := other.values.entries.foldl
    (fun values (key, theirs) => values.alter key fun
      | some mine => Lattice.join mine theirs
      | none => theirs)
    t.values

instance [Lattice T] : Lattice (MapTimestamp K T) := ⟨empty, join⟩

instance [CausalTimestamp T D] : CausalTimestamp (MapTimestamp K T) (OrMapDelta K D) where
  reflects t
    | .add _ dot => t.keys.contains dot
    | .remove _ dot _ => t.keys.contains dot
    | .value key delta => (t.values.get? key).any fun t => reflects t delta
  observe t
    | .add _ dot => { t with keys := t.keys.insert dot }
    | .remove _ dot tombstones =>
      { t with keys := t.keys.insertAll (dot :: tombstones.toList) }
    | .value key delta =>
      { t with values := t.values.alter key fun t => observe (t.getD (Lattice.bottom)) delta }

instance [Wire K] [Wire T] : Wire (MapTimestamp K T) where
  toJson t := .object [("keys", toJson t.keys), ("values", Wire.pairs t.values)]
  ofJson? j := do
    let [keys, values] ← j.record ["keys", "values"] | none
    return ⟨← keys.required ofJson?, ← values.required Wire.ofPairs?⟩

end MapTimestamp

namespace OrMap

variable [Key K]

def empty : OrMap K V := ⟨.empty, .empty, .empty⟩

/-- The entry to change under a key: the present one, or a hidden one with the initial value. -/
def entryOr [DeltaCrdt V D T] (e : Option (OrMapEntry V)) : OrMapEntry V :=
  e.getD ⟨.empty, initial⟩

/-- Enters a dot for the key and changes its value. The dot is entered even if the change hands out
no delta, so that the mutation still survives a concurrent removal. -/
def mutateAs [DeltaCrdt V D T] (m : OrMap K V) (dot : Dot) (key : K)
    (change : V → V × R × List D) : OrMap K V × R × List (OrMapDelta K D) :=
  let e := entryOr (m.entries.get? key)
  let (value, output, deltas) := change e.value
  ({ m with
      entries := m.entries.insert key ⟨e.dots.insert dot, value⟩
      context := m.context.insert dot },
    output, .add key dot :: deltas.map (.value key))

/-- Mints a dot for the key and changes its value. -/
def mutate [DeltaCrdt V D T] (m : OrMap K V) (actor : Actor) (key : K)
    (change : V → V × R × List D) : OrMap K V × R × List (OrMapDelta K D) :=
  m.mutateAs (m.context.nextDot actor) key change

/-- Hides a key under a dot; nothing happens where none of its dots was observed. -/
def removeAs (m : OrMap K V) (dot : Dot) (key : K) : OrMap K V × Option (OrMapDelta K D) :=
  match m.entries.get? key with
  | none => (m, none)
  | some e =>
    if e.dots.isEmpty then (m, none)
    else
      ({ entries := m.entries.insert key { e with dots := .empty }
         removals := m.removals.insert dot (key, e.dots)
         context := m.context.insert dot },
        some (.remove key dot e.dots))

/-- Hides a key under a fresh dot of the actor. -/
def remove (m : OrMap K V) (actor : Actor) (key : K) : OrMap K V × Option (OrMapDelta K D) :=
  m.removeAs (m.context.nextDot actor) key

/-- A value for an unknown key lands hidden until a dot of the key arrives. A removal keeps an
entry even for additions that have not arrived, so the keys that a replica tracks do not
depend on the order of delivery. -/
def merge [DeltaCrdt V D T] (m : OrMap K V) (δ : OrMapDelta K D) : OrMap K V × MergeResult :=
  match δ with
  | .add key dot =>
    if m.context.contains dot then (m, .unchanged)
    else
      let enter (e : Option (OrMapEntry V)) : OrMapEntry V :=
        let e := entryOr e
        { e with dots := e.dots.insert dot }
      ({ m with
          entries := m.entries.alter key enter
          context := m.context.insert dot },
        .updated)
  | .remove key dot tombstones =>
    if m.context.contains dot then (m, .unchanged)
    else
      let bury (e : Option (OrMapEntry V)) : OrMapEntry V :=
        let e := entryOr e
        { e with dots := e.dots.diff tombstones }
      ({ entries := m.entries.alter key bury
         removals := m.removals.insert dot (key, tombstones)
         context := m.context.insertAll (dot :: tombstones.toList) },
        .updated)
  | .value key delta =>
    let e := entryOr (m.entries.get? key)
    let (value, result) := DeltaRing.merge e.value delta
    ({ m with entries := m.entries.insert key { e with value := value } }, result)

def timestamp [DeltaCrdt V D T] (m : OrMap K V) : MapTimestamp K T :=
  ⟨m.context, m.entries.map fun _ e => DeltaRing.timestamp e.value⟩

/-- Removals first, by their dots, then the live dots of the keys, then the values' deltas. -/
def deltasSince [DeltaCrdt V D T] (m : OrMap K V) (since : Option (MapTimestamp K T)) :
    List (OrMapDelta K D) :=
  let unseen (dot : Dot) : Bool := !since.any fun t => t.keys.contains dot
  let removes := m.removals.entries.filterMap fun (dot, key, tombstones) =>
    if unseen dot then some (.remove key dot tombstones) else none
  let adds := m.entries.entries.flatMap fun (key, e) =>
    (e.dots.toList.filter unseen).map (.add key)
  let values := m.entries.entries.flatMap fun (key, e) =>
    (DeltaRing.deltasSince e.value (since.bind fun t => t.values.get? key)).map (.value key)
  removes ++ adds ++ values

instance [DeltaCrdt V D T] : DeltaCrdt (OrMap K V) (OrMapDelta K D) (MapTimestamp K T) where
  initial := empty
  merge := merge
  timestamp := timestamp
  deltasSince := deltasSince
  sizeEstimate m :=
    total (m.entries.values.map fun e => sizeEstimate e.value + e.dots.size) + m.removals.size

/-- Applies an operation under a dot; `change` applies those on the values. -/
def applyAs [DeltaCrdt V D T] (m : OrMap K V) (dot : Dot) (change : V → O → V × R × List D) :
    OrMapOperation K O → OrMap K V × OrMapOutput R × List (OrMapDelta K D)
  | .mutate key op =>
    let (m, output, deltas) := m.mutateAs dot key fun v => change v op
    (m, .mutated output, deltas)
  | .remove key =>
    let (m, δ?) := m.removeAs dot key
    (m, .removed δ?.isSome, δ?.toList)

instance {Kᵥ : Type} [DeltaCrdt V D T] [Operable V D O R Kᵥ] :
    Operable (OrMap K V) (OrMapDelta K D) (OrMapOperation K O) (OrMapOutput R) K where
  apply m actor := m.applyAs (m.context.nextDot actor) fun v => Operable.apply v actor
  applyInWords m actor :=
    m.applyAs (m.context.nextWordDot actor) fun v => Operable.applyInWords v actor
  operationKey := OrMapOperation.key

/-! ### Reading -/

/-- The value of a key that is present. -/
def get? (m : OrMap K V) (key : K) : Option V :=
  ((m.entries.get? key).filter fun e => !e.dots.isEmpty).map OrMapEntry.value

/-- The present keys, in order, with their values. -/
def items (m : OrMap K V) : List (K × V) :=
  m.entries.entries.filterMap fun (key, e) =>
    if e.dots.isEmpty then none else some (key, e.value)

end OrMap

end DeltaRing
