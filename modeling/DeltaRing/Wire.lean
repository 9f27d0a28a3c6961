import DeltaRing.Collections.SortedSet
import DeltaRing.Json.Printer
import DeltaRing.Json.Reader
import DeltaRing.Json.Record

/-!
The wire form of values.

A type has one way to be written as a document and one way to be read from it. What travels
between nodes or lies on disk is the compact text of that document, as UTF-8 bytes.
-/

namespace DeltaRing

class Wire (α : Type) where
  toJson : α → Json
  ofJson? : Json → Option α
  /-- Reads a value that stands inside a tagged union. -/
  ofInner? : Json → Option α := ofJson?

export Wire (toJson ofJson? ofInner?)

/-- Encoded values: deltas, operations, outputs and timestamps as they travel. -/
abbrev Payload := ByteArray

instance : DecidableEq Payload := fun p q =>
  decidable_of_decidable_of_iff (p := p.data = q.data) ⟨ByteArray.ext, congrArg _⟩

namespace Wire

variable {α β : Type}

/-- The compact text of a value. -/
def text [Wire α] (a : α) : String := (toJson a).render

/-- The value whose text `s` is. -/
def ofText? [Wire α] (s : String) : Option α := (Json.read? s).bind ofJson?

def encode [Wire α] (a : α) : Payload := (text a).toUTF8

/-- The value that bytes hold. Where a value is skipped, they need not belong to characters. -/
def decode? [Wire α] (p : Payload) : Option α :=
  match String.fromUTF8? p with
  | some s => ofText? s
  | none => (Json.readBytes? p.data.toList).bind ofJson?

/-! ### Plain types -/

instance : Wire String where
  toJson := .text
  ofJson? := Json.asText

instance : Wire Bool where
  toJson := .bool
  ofJson? := Json.asBool

/-- Integers travel as signed 64-bit integers. -/
instance : Wire Int where
  toJson := .int
  ofJson? := Json.asInt

/-- Counts, times and sizes travel as 64-bit naturals. -/
instance : Wire Nat where
  toJson n := .int n
  ofJson? := Json.asNat word64

instance [Wire α] : Wire (List α) where
  toJson l := .array (l.map toJson)
  ofJson? := Json.asList ofJson?
  ofInner? := Json.asList ofInner?

instance [Wire α] : Wire (Option α) where
  toJson o := o.elim .null toJson
  ofJson? := Json.asOption ofJson?
  ofInner? := Json.asOption ofInner?

/-- A set travels as the list of its members, and repeated members collapse. -/
instance [Key α] [Wire α] : Wire (SortedSet α) where
  toJson s := toJson s.toList
  ofJson? j := (ofJson? j).map SortedSet.ofList

/-- A map from names travels as an object. -/
instance [Wire β] : Wire (SortedMap String β) where
  toJson m := .object (m.entries.map fun (name, b) => (name, toJson b))
  ofJson? j := (j.asMembers ofJson?).map SortedMap.ofList

/-- A map from other keys travels as a list of pairs; a later pair replaces an earlier one. -/
def pairs [Key α] [Wire α] [Wire β] (m : SortedMap α β) : Json :=
  .array (m.entries.map fun (a, b) => .array [toJson a, toJson b])

def ofPairs? [Key α] [Wire α] [Wire β] (j : Json) : Option (SortedMap α β) :=
  (j.asList (Json.asPair ofJson? ofJson?)).map SortedMap.ofList

/-- Bytes travel as a list of small numbers. -/
instance : Wire ByteArray where
  toJson p := .array (p.data.toList.map fun b => .int b.toNat)
  ofJson? j := (j.asList (Json.asNat word8)).map fun l => ⟨(l.map Nat.toUInt8).toArray⟩

end Wire

end DeltaRing
