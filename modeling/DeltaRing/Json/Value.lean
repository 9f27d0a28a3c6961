/-!
JSON documents as values.

Integers that fit 64 bits are kept exactly; any other number is a decimal, kept as it was
written and turned into a double only where a double is wanted. Text can be well formed and still
denote nothing: a string with an escape for half of a surrogate pair is one case. It reads as
`illegible`, which no type accepts but which may stand where a value is skipped.
-/

namespace DeltaRing

/-- A natural number fits 64 bits if it is below this bound, and likewise for the others. -/
def word64 : Nat := 0x10000000000000000
def word63 : Nat := 0x8000000000000000
def word32 : Nat := 0x100000000
def word16 : Nat := 0x10000
def word8 : Nat := 0x100

/-- The number `±significand · 10 ^ exponent`. -/
structure Decimal where
  negative : Bool
  significand : Nat
  exponent : Int
deriving DecidableEq

namespace Decimal

/-- A power of ten as a double; exact rounding for every exponent up to 308. -/
def tenTo (n : Nat) : Float := Float.ofScientific 1 false n

/-- Divides by ten to the power `n`, in steps no power of ten beyond the doubles can spoil. -/
def scaleDown (f : Float) (n : Nat) : Float :=
  if n ≤ 308 then f / tenTo n
  else if f == 0 then f
  else scaleDown (f / tenTo 308) (n - 308)
termination_by n

/-- Multiplies by ten to the power `n`; nothing if that leaves the doubles. -/
def scaleUp (f : Float) (n : Nat) : Option Float :=
  if n ≤ 308 then
    let scaled := f * tenTo n
    if scaled.isInf then none else some scaled
  else if f == 0 then some f
  else none

/-- The double that a decimal denotes: its significand scaled by a power of ten. -/
def toFloat? (d : Decimal) : Option Float :=
  let magnitude := d.significand.toUInt64.toFloat
  let scaled :=
    match d.exponent with
    | .ofNat n => scaleUp magnitude n
    | .negSucc n => some (scaleDown magnitude (n + 1))
  scaled.map fun f => if d.negative then -f else f

end Decimal

/-- A document. Members of an object keep their order, and names may repeat. -/
inductive Json where
  | null
  | bool (b : Bool)
  | int (n : Int)
  | decimal (d : Decimal)
  | text (s : String)
  | array (items : List Json)
  | object (members : List (String × Json))
  | illegible

namespace Json

instance : Inhabited Json := ⟨.null⟩

mutual

/-- Everything in the document denotes a value. -/
def legible : Json → Bool
  | .illegible => false
  | .decimal d => d.toFloat?.isSome
  | .array items => legibleItems items
  | .object members => legibleMembers members
  | _ => true

def legibleItems : List Json → Bool
  | [] => true
  | j :: rest => legible j && legibleItems rest

def legibleMembers : List (String × Json) → Bool
  | [] => true
  | (_, j) :: rest => legible j && legibleMembers rest

end

end Json

end DeltaRing
