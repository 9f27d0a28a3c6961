import DeltaRing.Delta

/-!
Last-writer-wins registries.

Every key holds the value or the tombstone with the greatest stamp seen. Stamps are ordered by
time and then by actor, so all replicas pick the same winner in whatever order writes arrive.
-/

namespace DeltaRing

structure LwwStamp where
  time : Nat
  actor : Actor
deriving DecidableEq

namespace LwwStamp

instance : Key LwwStamp := Key.onto (fun s => (s.time, s.actor)) fun
  | ⟨_, _⟩, ⟨_, _⟩, h => by simpa using h

/-- `s` loses against `t`: it is strictly smaller. -/
def isBelow (s t : LwwStamp) : Bool := compare s t == .lt

instance : Wire LwwStamp where
  toJson s := .object [("time", toJson s.time), ("actor", toJson s.actor)]
  ofJson? j := do
    let [time, actor] ← j.record ["time", "actor"] | none
    return ⟨← time.required ofJson?, ← actor.required ofJson?⟩

end LwwStamp

inductive LwwDelta (K V : Type) where
  | set (key : K) (value : V) (stamp : LwwStamp)
  | remove (key : K) (stamp : LwwStamp)
deriving DecidableEq

inductive LwwOperation (K V : Type) where
  | set (key : K) (value : V) (time : Nat)
  | remove (key : K) (time : Nat)
deriving DecidableEq

/-- What a rejected write met: the winner, nothing if that is a tombstone, and its stamp. -/
structure LwwConflict (V : Type) where
  winner : Option V
  stamp : LwwStamp
deriving DecidableEq

inductive LwwOutcome (V : Type) where
  | applied
  | conflict (met : LwwConflict V)
deriving DecidableEq

/-- The greatest stamp merged for every key. -/
structure LwwTimestamp (K : Type) [Key K] where
  stamps : SortedMap K LwwStamp
deriving DecidableEq

/-- A value, or a tombstone, and the stamp of the write that left it. -/
structure LwwEntry (V : Type) where
  value : Option V
  stamp : LwwStamp
deriving DecidableEq

structure LwwRegistry (K V : Type) [Key K] where
  entries : SortedMap K (LwwEntry V)
deriving DecidableEq

variable {K V : Type}

namespace LwwDelta

def key : LwwDelta K V → K
  | set key _ _ => key
  | remove key _ => key

def stamp : LwwDelta K V → LwwStamp
  | set _ _ stamp => stamp
  | remove _ stamp => stamp

def entry : LwwDelta K V → LwwEntry V
  | set _ value stamp => ⟨some value, stamp⟩
  | remove _ stamp => ⟨none, stamp⟩

/-- The delta that brings an entry to another replica. -/
def ofEntry (key : K) (e : LwwEntry V) : LwwDelta K V :=
  match e.value with
  | some value => set key value e.stamp
  | none => remove key e.stamp

/-- Reads a delta whose variant is read by `variant`. -/
def ofTagged? [Wire K] [Wire V] (variant : Json → Option String) (j : Json) :
    Option (LwwDelta K V) := do
  match ← j.tagged "kind" variant with
  | ("set", rest) =>
    let [key, value, stamp] ← rest.record ["key", "value", "stamp"] | none
    return .set (← key.required ofInner?) (← value.required ofInner?) (← stamp.required ofInner?)
  | ("remove", rest) =>
    let [key, stamp] ← rest.record ["key", "stamp"] | none
    return .remove (← key.required ofInner?) (← stamp.required ofInner?)
  | _ => none

instance [Wire K] [Wire V] : Wire (LwwDelta K V) where
  toJson
    | set key value stamp => .object
        [("kind", .text "set"), ("key", toJson key), ("value", toJson value), ("stamp", toJson stamp)]
    | remove key stamp =>
      .object [("kind", .text "remove"), ("key", toJson key), ("stamp", toJson stamp)]
  ofJson? := ofTagged? Json.asText
  ofInner? := ofTagged? (Json.asVariant ["set", "remove"])

end LwwDelta

namespace LwwOperation

def key : LwwOperation K V → K
  | set key _ _ => key
  | remove key _ => key

/-- The delta that the operation amounts to when `actor` applies it. -/
def delta (actor : Actor) : LwwOperation K V → LwwDelta K V
  | set key value time => .set key value ⟨time, actor⟩
  | remove key time => .remove key ⟨time, actor⟩

/-- Reads an operation whose variant is read by `variant`. -/
def ofTagged? [Wire K] [Wire V] (variant : Json → Option String) (j : Json) :
    Option (LwwOperation K V) := do
  match ← j.tagged "op" variant with
  | ("set", rest) =>
    let [key, value, time] ← rest.record ["key", "value", "time"] | none
    return .set (← key.required ofInner?) (← value.required ofInner?) (← time.required ofInner?)
  | ("remove", rest) =>
    let [key, time] ← rest.record ["key", "time"] | none
    return .remove (← key.required ofInner?) (← time.required ofInner?)
  | _ => none

instance [Wire K] [Wire V] : Wire (LwwOperation K V) where
  toJson
    | set key value time => .object
        [("op", .text "set"), ("key", toJson key), ("value", toJson value), ("time", toJson time)]
    | remove key time =>
      .object [("op", .text "remove"), ("key", toJson key), ("time", toJson time)]
  ofJson? := ofTagged? Json.asText
  ofInner? := ofTagged? (Json.asVariant ["set", "remove"])

end LwwOperation

instance [Wire V] : Wire (LwwConflict V) where
  toJson c := .object [("winner", toJson c.winner), ("stamp", toJson c.stamp)]
  ofJson? j := do
    let [winner, stamp] ← j.record ["winner", "stamp"] | none
    return ⟨← winner.optional ofJson?, ← stamp.required ofJson?⟩

namespace LwwOutcome

/-- Reads an outcome whose variant is read by `variant`. -/
def ofTagged? [Wire V] (variant : Json → Option String) (j : Json) : Option (LwwOutcome V) := do
  match ← j.tagged "outcome" variant with
  | ("applied", rest) => if rest.noFields then return .applied else none
  | ("conflict", rest) => return .conflict (← ofInner? rest)
  | _ => none

instance [Wire V] : Wire (LwwOutcome V) where
  toJson
    | .applied => .object [("outcome", .text "applied")]
    | .conflict met => .object
        [("outcome", .text "conflict"), ("winner", toJson met.winner), ("stamp", toJson met.stamp)]
  ofJson? := ofTagged? Json.asText
  ofInner? := ofTagged? (Json.asVariant ["applied", "conflict"])

end LwwOutcome

namespace LwwTimestamp

variable [Key K]

/-- Takes in a stamp of a key, which counts if it is greater than the one present. -/
def advance (t : LwwTimestamp K) (key : K) (stamp : LwwStamp) : LwwTimestamp K :=
  ⟨t.stamps.alter key fun
    | some current => if current.isBelow stamp then stamp else current
    | none => stamp⟩

def join (t other : LwwTimestamp K) : LwwTimestamp K :=
  other.stamps.entries.foldl (fun t (key, stamp) => t.advance key stamp) t

instance : Lattice (LwwTimestamp K) := ⟨⟨.empty⟩, join⟩

instance : CausalTimestamp (LwwTimestamp K) (LwwDelta K V) where
  reflects t δ := (t.stamps.get? δ.key).any fun seen => !seen.isBelow δ.stamp
  observe t δ := t.advance δ.key δ.stamp

instance [Wire K] : Wire (LwwTimestamp K) where
  toJson t := .object [("stamps", Wire.pairs t.stamps)]
  ofJson? j := do
    let [stamps] ← j.record ["stamps"] | none
    return ⟨← stamps.required Wire.ofPairs?⟩

end LwwTimestamp

namespace LwwRegistry

variable [Key K]

def empty : LwwRegistry K V := ⟨.empty⟩

/-- The entry that a write with this stamp cannot replace. -/
def blocking (r : LwwRegistry K V) (key : K) (stamp : LwwStamp) : Option (LwwEntry V) :=
  (r.entries.get? key).filter fun current => !current.stamp.isBelow stamp

def merge (r : LwwRegistry K V) (δ : LwwDelta K V) : LwwRegistry K V × MergeResult :=
  match r.blocking δ.key δ.stamp with
  | some _ => (r, .unchanged)
  | none => (⟨r.entries.insert δ.key δ.entry⟩, .updated)

/-- A local write: it takes effect if its stamp is greater than that of the present entry. -/
def write (r : LwwRegistry K V) (δ : LwwDelta K V) :
    LwwRegistry K V × Except (LwwConflict V) (LwwDelta K V) :=
  match r.blocking δ.key δ.stamp with
  | some current => (r, .error ⟨current.value, current.stamp⟩)
  | none => (⟨r.entries.insert δ.key δ.entry⟩, .ok δ)

def timestamp (r : LwwRegistry K V) : LwwTimestamp K := ⟨r.entries.map fun _ e => e.stamp⟩

def deltasSince (r : LwwRegistry K V) (since : Option (LwwTimestamp K)) : List (LwwDelta K V) :=
  r.entries.entries.filterMap fun (key, e) =>
    let seen := since.bind fun t => t.stamps.get? key
    if seen.all fun stamp => stamp.isBelow e.stamp then some (.ofEntry key e) else none

instance : DeltaCrdt (LwwRegistry K V) (LwwDelta K V) (LwwTimestamp K) where
  initial := empty
  merge := merge
  timestamp := timestamp
  deltasSince := deltasSince
  sizeEstimate r := r.entries.size

def apply (r : LwwRegistry K V) (actor : Actor) (op : LwwOperation K V) :
    LwwRegistry K V × LwwOutcome V × List (LwwDelta K V) :=
  match r.write (op.delta actor) with
  | (r, .ok δ) => (r, .applied, [δ])
  | (r, .error met) => (r, .conflict met, [])

/-- Writes mint no dots. -/
instance : Operable (LwwRegistry K V) (LwwDelta K V) (LwwOperation K V) (LwwOutcome V) K where
  apply := apply
  applyInWords := apply
  operationKey := LwwOperation.key

/-! ### Reading -/

def get? (r : LwwRegistry K V) (key : K) : Option V := (r.entries.get? key).bind LwwEntry.value

/-- The stamp of the present entry, also of a tombstone. -/
def stamp? (r : LwwRegistry K V) (key : K) : Option LwwStamp :=
  (r.entries.get? key).map LwwEntry.stamp

/-- The live entries in key order. -/
def items (r : LwwRegistry K V) : List (K × V) :=
  r.entries.entries.filterMap fun (key, e) => e.value.map (key, ·)

end LwwRegistry

end DeltaRing
