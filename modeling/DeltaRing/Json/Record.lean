import DeltaRing.Json.Value

/-!
Reading records and tagged unions out of documents.

A record is an object, in which unknown members are skipped and a known one may stand only once,
or an array of its fields in order, which may stop early but holds nothing more. A tagged union
is a record with one member, anywhere in it, that names the variant; because its variant may
become known last, all of it has to denote values, also what is skipped. A union that stands inside
another one may name its variant by its place among the variants.
-/

namespace DeltaRing.Json

/-- What a document holds for one field of a record. -/
inductive Slot where
  | given (j : Json)
  /-- An object without that member. -/
  | missing
  /-- An array that ended before that field. -/
  | cut

namespace Slot

/-- Fields of an array, by position. -/
def positional : List String → List Json → List Slot
  | [], _ => []
  | _ :: names, [] => .cut :: positional names []
  | _ :: names, j :: items => .given j :: positional names items

/-- The member called `name`, unless it stands twice. -/
def named (members : List (String × Json)) (name : String) : Option Slot :=
  match members.filter fun m => m.1 = name with
  | [] => some .missing
  | [m] => some (.given m.2)
  | _ => none

variable {α : Type}

/-- A field that has to be there. -/
def required (read : Json → Option α) : Slot → Option α
  | .given j => read j
  | _ => none

/-- A field that may be null or left out of an object, but not cut off an array. -/
def optional (read : Json → Option α) : Slot → Option (Option α)
  | .given .null => some none
  | .given j => (read j).map some
  | .missing => some none
  | .cut => none

/-- A field that stands for `default` wherever it is left out. -/
def defaulted (default : α) (read : Json → Option α) : Slot → Option α
  | .given j => read j
  | _ => some default

end Slot

/-- The slots of a record with the given field names. -/
def record (names : List String) : Json → Option (List Slot)
  | .object members => names.mapM (Slot.named members)
  | .array items => if items.length ≤ names.length then some (Slot.positional names items) else none
  | _ => none

/-- The variant and the rest of a tagged union, whose tag is read by `variant`. -/
def tagged (tag : String) (variant : Json → Option String) : Json → Option (String × Json)
  | .object members =>
    match members.filter (fun m => m.1 = tag), members.filter (fun m => m.1 ≠ tag) with
    | [(_, j)], rest => if legibleMembers rest then (variant j).map (·, .object rest) else none
    | _, _ => none
  | .array (j :: rest) => if legibleItems rest then (variant j).map (·, .array rest) else none
  | _ => none

/-- The rest of a tagged union whose variant has no fields. -/
def noFields : Json → Bool
  | .object _ => true
  | .array items => items.isEmpty
  | _ => false

/-- A variant without content: its name, or an object that maps its name to null. -/
def unitVariant : Json → Option String
  | .text name => some name
  | .object [(name, .null)] => some name
  | _ => none

/-! ### Plain values -/

def asText : Json → Option String
  | .text s => some s
  | _ => none

/-- A variant out of those with the given names: its name, or its place among them. -/
def asVariant (names : List String) : Json → Option String
  | .int (.ofNat place) => names[place]?
  | j => j.asText

def asBool : Json → Option Bool
  | .bool b => some b
  | _ => none

/-- A natural number below `bound`. -/
def asNat (bound : Nat) : Json → Option Nat
  | .int n => if 0 ≤ n ∧ n < bound then some n.toNat else none
  | _ => none

/-- A signed 64-bit integer. -/
def asInt : Json → Option Int
  | .int n => if -(word63 : Int) ≤ n ∧ n < word63 then some n else none
  | _ => none

/-- A double, which may be written as an integer. -/
def asFloat : Json → Option Float
  | .int (.ofNat n) => some n.toUInt64.toFloat
  | .int (.negSucc n) => some (-(n + 1).toUInt64.toFloat)
  | .decimal d => d.toFloat?
  | _ => none

variable {α : Type}

def asList (read : Json → Option α) : Json → Option (List α)
  | .array items => items.mapM read
  | _ => none

def asOption (read : Json → Option α) : Json → Option (Option α)
  | .null => some none
  | j => (read j).map some

/-- Two values in an array. -/
def asPair {β : Type} (first : Json → Option α) (second : Json → Option β) : Json → Option (α × β)
  | .array [a, b] => do return (← first a, ← second b)
  | _ => none

/-- An object as a map from names; a later member replaces an earlier one. -/
def asMembers (read : Json → Option α) : Json → Option (List (String × α))
  | .object members => members.mapM fun (name, j) => (read j).map (name, ·)
  | _ => none

end DeltaRing.Json
