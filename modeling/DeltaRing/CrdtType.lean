import DeltaRing.OrSet
import DeltaRing.Registry
import DeltaRing.OrMap

/-!
The replicated types that an instance can have.

A type is described by a code, written like `ormap<string,orset<string>>`, and the code gives the
types of states, deltas, timestamps, operations, outputs and keys. Everything above single
replicas works on codes, so one value can hold instances of different types.
-/

namespace DeltaRing

/-- Two bytes, ordered by the first, then by the second, and written as a list. -/
structure BytePair where
  first : UInt8
  second : UInt8
deriving DecidableEq

namespace BytePair

instance : Key BytePair := Key.onto (fun p => (p.first, p.second)) fun
  | ⟨_, _⟩, ⟨_, _⟩, h => by simpa using h

instance : Wire BytePair where
  toJson p := .array [.int p.first.toNat, .int p.second.toNat]
  ofJson? j := do
    let (first, second) ← j.asPair (Json.asNat word8) (Json.asNat word8)
    return ⟨first.toUInt8, second.toUInt8⟩

end BytePair

/-- Types of items, keys and plain values. -/
inductive Scalar where
  | string
  | int
  | pair
deriving DecidableEq

namespace Scalar

def name : Scalar → String
  | string => "string"
  | int => "int"
  | pair => "pair"

abbrev Carrier : Scalar → Type
  | string => String
  | int => Int
  | pair => BytePair

instance : (s : Scalar) → Key s.Carrier
  | string => inferInstanceAs (Key String)
  | int => inferInstanceAs (Key Int)
  | pair => inferInstanceAs (Key BytePair)

instance : (s : Scalar) → Wire s.Carrier
  | string => inferInstanceAs (Wire String)
  | int => inferInstanceAs (Wire Int)
  | pair => inferInstanceAs (Wire BytePair)

instance : (s : Scalar) → DecidableEq s.Carrier
  | string => inferInstanceAs (DecidableEq String)
  | int => inferInstanceAs (DecidableEq Int)
  | pair => inferInstanceAs (DecidableEq BytePair)

end Scalar

/-- Codes of replicated types. -/
inductive CrdtType where
  | orSet (item : Scalar)
  | registry (key value : Scalar)
  | orMap (key : Scalar) (value : CrdtType)
deriving DecidableEq

namespace CrdtType

def name : CrdtType → String
  | orSet item => "orset<" ++ item.name ++ ">"
  | registry key value => "lww<" ++ key.name ++ "," ++ value.name ++ ">"
  | orMap key value => "ormap<" ++ key.name ++ "," ++ value.name ++ ">"

def State : CrdtType → Type
  | orSet item => OrSet item.Carrier
  | registry key value => LwwRegistry key.Carrier value.Carrier
  | orMap key value => OrMap key.Carrier value.State

def Delta : CrdtType → Type
  | orSet item => OrSetDelta item.Carrier
  | registry key value => LwwDelta key.Carrier value.Carrier
  | orMap key value => OrMapDelta key.Carrier value.Delta

def Timestamp : CrdtType → Type
  | orSet _ => CausalContext
  | registry key _ => LwwTimestamp key.Carrier
  | orMap key value => MapTimestamp key.Carrier value.Timestamp

def Operation : CrdtType → Type
  | orSet item => OrSetOperation item.Carrier
  | registry key value => LwwOperation key.Carrier value.Carrier
  | orMap key value => OrMapOperation key.Carrier value.Operation

def Output : CrdtType → Type
  | orSet _ => Bool
  | registry _ value => LwwOutcome value.Carrier
  | orMap _ value => OrMapOutput value.Output

/-- The part of an operation that selects its shard. -/
def KeyType : CrdtType → Type
  | orSet item => item.Carrier
  | registry key _ => key.Carrier
  | orMap key _ => key.Carrier

/-! ### What every code provides -/

instance causalTimestamp : (t : CrdtType) → CausalTimestamp t.Timestamp t.Delta
  | orSet item => inferInstanceAs (CausalTimestamp CausalContext (OrSetDelta item.Carrier))
  | registry key value =>
    inferInstanceAs (CausalTimestamp (LwwTimestamp key.Carrier) (LwwDelta key.Carrier value.Carrier))
  | orMap key value =>
    have := value.causalTimestamp
    inferInstanceAs
      (CausalTimestamp (MapTimestamp key.Carrier value.Timestamp)
        (OrMapDelta key.Carrier value.Delta))

instance deltaCrdt : (t : CrdtType) → DeltaCrdt t.State t.Delta t.Timestamp
  | orSet item => inferInstanceAs (DeltaCrdt (OrSet item.Carrier) _ _)
  | registry key value => inferInstanceAs (DeltaCrdt (LwwRegistry key.Carrier value.Carrier) _ _)
  | orMap key value =>
    have := value.deltaCrdt
    inferInstanceAs (DeltaCrdt (OrMap key.Carrier value.State) _ _)

instance operable : (t : CrdtType) → Operable t.State t.Delta t.Operation t.Output t.KeyType
  | orSet item => inferInstanceAs (Operable (OrSet item.Carrier) _ _ _ _)
  | registry key value => inferInstanceAs (Operable (LwwRegistry key.Carrier value.Carrier) _ _ _ _)
  | orMap key value =>
    have := value.operable
    inferInstanceAs (Operable (OrMap key.Carrier value.State) _ _ _ _)

instance stateDecidableEq : (t : CrdtType) → DecidableEq t.State
  | orSet item => inferInstanceAs (DecidableEq (OrSet item.Carrier))
  | registry key value => inferInstanceAs (DecidableEq (LwwRegistry key.Carrier value.Carrier))
  | orMap key value =>
    have := value.stateDecidableEq
    inferInstanceAs (DecidableEq (OrMap key.Carrier value.State))

instance timestampDecidableEq : (t : CrdtType) → DecidableEq t.Timestamp
  | orSet _ => inferInstanceAs (DecidableEq CausalContext)
  | registry key _ => inferInstanceAs (DecidableEq (LwwTimestamp key.Carrier))
  | orMap key value =>
    have := value.timestampDecidableEq
    inferInstanceAs (DecidableEq (MapTimestamp key.Carrier value.Timestamp))

instance deltaWire : (t : CrdtType) → Wire t.Delta
  | orSet item => inferInstanceAs (Wire (OrSetDelta item.Carrier))
  | registry key value => inferInstanceAs (Wire (LwwDelta key.Carrier value.Carrier))
  | orMap key value =>
    have := value.deltaWire
    inferInstanceAs (Wire (OrMapDelta key.Carrier value.Delta))

instance timestampWire : (t : CrdtType) → Wire t.Timestamp
  | orSet _ => inferInstanceAs (Wire CausalContext)
  | registry key _ => inferInstanceAs (Wire (LwwTimestamp key.Carrier))
  | orMap key value =>
    have := value.timestampWire
    inferInstanceAs (Wire (MapTimestamp key.Carrier value.Timestamp))

instance operationWire : (t : CrdtType) → Wire t.Operation
  | orSet item => inferInstanceAs (Wire (OrSetOperation item.Carrier))
  | registry key value => inferInstanceAs (Wire (LwwOperation key.Carrier value.Carrier))
  | orMap key value =>
    have := value.operationWire
    inferInstanceAs (Wire (OrMapOperation key.Carrier value.Operation))

instance outputWire : (t : CrdtType) → Wire t.Output
  | orSet _ => inferInstanceAs (Wire Bool)
  | registry _ value => inferInstanceAs (Wire (LwwOutcome value.Carrier))
  | orMap _ value =>
    have := value.outputWire
    inferInstanceAs (Wire (OrMapOutput value.Output))

instance keyWire : (t : CrdtType) → Wire t.KeyType
  | orSet item => inferInstanceAs (Wire item.Carrier)
  | registry key _ => inferInstanceAs (Wire key.Carrier)
  | orMap key _ => inferInstanceAs (Wire key.Carrier)

/-! ### Names -/

/-- The types that nodes know by name. -/
def known : List CrdtType :=
  [orSet .string, orSet .int, registry .string .string, registry .int .int,
    registry .pair .string, orMap .string (orSet .string), orMap .int (orSet .int),
    orMap .string (registry .string .int), orMap .string (orMap .string (orSet .string))]

def ofName? (name : String) : Option CrdtType := known.find? fun t => t.name = name

end CrdtType

end DeltaRing
