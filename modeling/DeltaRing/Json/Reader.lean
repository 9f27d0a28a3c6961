import DeltaRing.Json.Value
import DeltaRing.Text.Utf8

/-!
Reading JSON text.

The grammar is the standard one: blanks are space, tab, line feed and carriage return; a number
has no leading zero and at least one digit wherever digits may stand; a string holds no
character below U+0020. Each reader takes the text still to be read and gives back what is
left after it. `document` gives fuel in plenty: every call eats a character first.

What is skipped is held to the grammar and to nothing else. So two more things read as `illegible`
and not as mistakes: an array or object that stands in too many others, and a string with bytes that
belong to no character, for which U+0000 stands in the text.
-/

namespace DeltaRing.Json.Reader

def isBlank (c : Char) : Bool := c = ' ' || c = '\n' || c = '\t' || c = '\r'

def skipBlanks (cs : List Char) : List Char := cs.dropWhile isBlank

def digitValue (c : Char) : Nat := c.toNat - '0'.toNat

/-! ### Numbers -/

/-- Takes in digits while the significand fits 64 bits; counts the digits that did not fit. -/
def wholeDigits (ds : List Char) : Nat × Nat :=
  ds.foldl
    (fun (significand, dropped) c =>
      if dropped = 0 ∧ significand * 10 + digitValue c < word64 then
        (significand * 10 + digitValue c, 0)
      else (significand, dropped + 1))
    (0, 0)

/-- Takes in digits after the point while the significand fits 64 bits; the rest is ignored. -/
def pointDigits (significand : Nat) (exponent : Int) : List Char → Nat × Int
  | [] => (significand, exponent)
  | c :: rest =>
    if significand * 10 + digitValue c < word64 then
      pointDigits (significand * 10 + digitValue c) (exponent - 1) rest
    else (significand, exponent)

def natural (ds : List Char) : Nat := ds.foldl (fun n c => n * 10 + digitValue c) 0

/-- The exponent after `e`, which may have a sign and has a digit. -/
def exponent (cs : List Char) : Option (Int × List Char) :=
  let (negative, cs) :=
    match cs with
    | '+' :: rest => (false, rest)
    | '-' :: rest => (true, rest)
    | _ => (false, cs)
  let ds := cs.takeWhile Char.isDigit
  if ds.isEmpty then none
  else
    let n : Int := natural ds
    some (if negative then -n else n, cs.dropWhile Char.isDigit)

/-- The rest of a number whose whole part has been read. -/
def afterWhole (negative : Bool) (significand dropped : Nat) (cs : List Char) :
    Option (Json × List Char) :=
  let withExponent (significand : Nat) (scale : Int) (cs : List Char) : Option (Json × List Char) :=
    match cs with
    | 'e' :: rest | 'E' :: rest =>
      (exponent rest).map fun (e, rest) => (.decimal ⟨negative, significand, scale + e⟩, rest)
    | _ => some (.decimal ⟨negative, significand, scale⟩, cs)
  match cs with
  | '.' :: rest =>
    let ds := rest.takeWhile Char.isDigit
    if ds.isEmpty then none
    else
      let (significand, scale) := pointDigits significand dropped ds
      withExponent significand scale (rest.dropWhile Char.isDigit)
  | 'e' :: _ | 'E' :: _ => withExponent significand dropped cs
  | _ =>
    if dropped ≠ 0 then some (.decimal ⟨negative, significand, dropped⟩, cs)
    else if !negative then some (.int significand, cs)
    else if 0 < significand ∧ significand ≤ word63 then some (.int (-significand), cs)
    else some (.decimal ⟨true, significand, 0⟩, cs)

def number (cs : List Char) : Option (Json × List Char) :=
  let (negative, cs) :=
    match cs with
    | '-' :: rest => (true, rest)
    | _ => (false, cs)
  let ds := cs.takeWhile Char.isDigit
  match ds with
  | [] => none
  | '0' :: _ :: _ => none
  | _ =>
    let (significand, dropped) := wholeDigits ds
    afterWhole negative significand dropped (cs.dropWhile Char.isDigit)

/-! ### Strings -/

def hexValue (c : Char) : Option Nat :=
  if '0' ≤ c ∧ c ≤ '9' then some (c.toNat - '0'.toNat)
  else if 'a' ≤ c ∧ c ≤ 'f' then some (c.toNat - 'a'.toNat + 10)
  else if 'A' ≤ c ∧ c ≤ 'F' then some (c.toNat - 'A'.toNat + 10)
  else none

def hexUnit (a b c d : Char) : Option Nat := do
  return (((← hexValue a) * 16 + (← hexValue b)) * 16 + (← hexValue c)) * 16 + (← hexValue d)

/-- Stands for a byte that belongs to no character; no text may hold it. -/
def strayMark : Char := '\x00'

/-- A piece of a string literal: a character, a 16-bit unit written by its number, or a byte that
belongs to no character. -/
inductive Piece where
  | char (c : Char)
  | unit (n : Nat)
  | stray

def escapedChar : Char → Option Char
  | '"' => some '"'
  | '\\' => some '\\'
  | '/' => some '/'
  | 'b' => some '\x08'
  | 'f' => some '\x0c'
  | 'n' => some '\n'
  | 'r' => some '\r'
  | 't' => some '\t'
  | _ => none

/-- The pieces up to the closing quote. -/
def pieces : List Char → Option (List Piece × List Char)
  | [] => none
  | '"' :: rest => some ([], rest)
  | '\\' :: 'u' :: a :: b :: c :: d :: rest => do
    let n ← hexUnit a b c d
    let (ps, rest) ← pieces rest
    return (.unit n :: ps, rest)
  | '\\' :: c :: rest => do
    let c ← escapedChar c
    let (ps, rest) ← pieces rest
    return (.char c :: ps, rest)
  | c :: rest =>
    if c = strayMark then do
      let (ps, rest) ← pieces rest
      return (.stray :: ps, rest)
    else if c = '\\' ∨ c.toNat < 0x20 then none
    else do
      let (ps, rest) ← pieces rest
      return (.char c :: ps, rest)

def isHighHalf (n : Nat) : Bool := 0xd800 ≤ n && n < 0xdc00
def isLowHalf (n : Nat) : Bool := 0xdc00 ≤ n && n < 0xe000

/-- The text of a literal; nothing if a half of a surrogate pair stands without the other, or if a
byte belongs to no character. -/
def assemble : List Piece → Option (List Char)
  | [] => some []
  | .stray :: _ => none
  | .char c :: rest => (assemble rest).map (c :: ·)
  | .unit high :: .unit low :: rest =>
    if isHighHalf high then
      if isLowHalf low then
        (assemble rest).map (Char.ofNat (0x10000 + (high - 0xd800) * 0x400 + (low - 0xdc00)) :: ·)
      else none
    else if isLowHalf high then none
    else (assemble (.unit low :: rest)).map (Char.ofNat high :: ·)
  | .unit n :: rest =>
    if isHighHalf n || isLowHalf n then none
    else (assemble rest).map (Char.ofNat n :: ·)

/-- The text of a string literal, after its opening quote; nothing inside if it has no text. -/
def literal (cs : List Char) : Option (Option String × List Char) :=
  (pieces cs).map fun (ps, rest) => ((assemble ps).map String.ofList, rest)

/-! ### Values -/

/-- An object with a name that has no text has no reading of its own. -/
def ofMembers (members : List (Option String × Json)) : Json :=
  match members.mapM fun (name, j) => name.map (·, j) with
  | some members => .object members
  | none => .illegible

/-- This many arrays and objects may be open at a time in what is read. -/
def maxOpen : Nat := 127

/-- An array or object, where `room` more may be opened. -/
def nested (room : Nat) (j : Json) : Json := if room = 0 then .illegible else j

mutual

def value : Nat → Nat → List Char → Option (Json × List Char)
  | 0, _, _ => none
  | fuel + 1, room, cs =>
    match skipBlanks cs with
    | 'n' :: 'u' :: 'l' :: 'l' :: rest => some (.null, rest)
    | 't' :: 'r' :: 'u' :: 'e' :: rest => some (.bool true, rest)
    | 'f' :: 'a' :: 'l' :: 's' :: 'e' :: rest => some (.bool false, rest)
    | '"' :: rest => (literal rest).map fun (s, rest) => (s.elim .illegible .text, rest)
    | '[' :: rest =>
      match skipBlanks rest with
      | ']' :: rest => some (nested room (.array []), rest)
      | rest =>
        (elements fuel (room - 1) rest).map fun (items, rest) => (nested room (.array items), rest)
    | '\x7b' :: rest =>
      match skipBlanks rest with
      | '\x7d' :: rest => some (nested room (.object []), rest)
      | rest =>
        (members fuel (room - 1) rest).map fun (fields, rest) =>
          (nested room (ofMembers fields), rest)
    | cs => number cs

/-- The elements of an array, at least one, and its closing bracket. -/
def elements : Nat → Nat → List Char → Option (List Json × List Char)
  | 0, _, _ => none
  | fuel + 1, room, cs => do
    let (j, rest) ← value fuel room cs
    match skipBlanks rest with
    | ',' :: rest =>
      let (items, rest) ← elements fuel room rest
      return (j :: items, rest)
    | ']' :: rest => return ([j], rest)
    | _ => none

/-- The members of an object, at least one, and its closing brace. -/
def members : Nat → Nat → List Char → Option (List (Option String × Json) × List Char)
  | 0, _, _ => none
  | fuel + 1, room, cs => do
    let '"' :: rest := skipBlanks cs | none
    let (name, rest) ← literal rest
    let ':' :: rest := skipBlanks rest | none
    let (j, rest) ← value fuel room rest
    match skipBlanks rest with
    | ',' :: rest =>
      let (fields, rest) ← members fuel room rest
      return ((name, j) :: fields, rest)
    | '\x7d' :: rest => return ([(name, j)], rest)
    | _ => none

end

/-- A value with nothing but blanks around it. -/
def document (cs : List Char) : Option Json :=
  match value (2 * cs.length + 1) maxOpen cs with
  | some (j, rest) => if (skipBlanks rest).isEmpty then some j else none
  | none => none

end Reader

/-- The document that a text holds. -/
def read? (s : String) : Option Json :=
  if s.contains Reader.strayMark then none else Reader.document s.toList

/-- The document that bytes hold, which need not all belong to characters. -/
def readBytes? (bytes : List UInt8) : Option Json :=
  if bytes.contains 0 then none
  else Reader.document ((Text.Utf8.decode bytes).map fun c => c.getD Reader.strayMark)

end DeltaRing.Json
