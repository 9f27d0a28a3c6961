import DeltaRing.Json.Value

/-!
Compact JSON text.

No blanks are written, members keep their order, and a string escapes exactly the quote, the
backslash and the characters below U+0020, the common ones by a letter and the others by
`\u00` and two lower case digits.
-/

namespace DeltaRing.Json.Printer

/-- The decimal digits of a natural number, most significant first. -/
def digits (n : Nat) : List Char :=
  if n < 10 then [Nat.digitChar n] else digits (n / 10) ++ [Nat.digitChar (n % 10)]
termination_by n

def integer : Int → List Char
  | .ofNat n => digits n
  | .negSucc n => '-' :: digits (n + 1)

/-- A decimal is written with its exponent, so that it reads back as a decimal. -/
def decimal (d : Decimal) : List Char :=
  (if d.negative then ['-'] else []) ++ digits d.significand ++ 'e' :: integer d.exponent

def escape (c : Char) : List Char :=
  if c = '"' then ['\\', '"']
  else if c = '\\' then ['\\', '\\']
  else if c = '\x08' then ['\\', 'b']
  else if c = '\x0c' then ['\\', 'f']
  else if c = '\n' then ['\\', 'n']
  else if c = '\r' then ['\\', 'r']
  else if c = '\t' then ['\\', 't']
  else if c.toNat < 0x20 then
    ['\\', 'u', '0', '0', Nat.digitChar (c.toNat / 16), Nat.digitChar (c.toNat % 16)]
  else [c]

def quoted (s : String) : List Char := '"' :: s.toList.flatMap escape ++ ['"']

mutual

def value : Json → List Char
  | .null => ['n', 'u', 'l', 'l']
  | .bool true => ['t', 'r', 'u', 'e']
  | .bool false => ['f', 'a', 'l', 's', 'e']
  | .int n => integer n
  | .decimal d => decimal d
  | .text s => quoted s
  | .array items => '[' :: elements items ++ [']']
  | .object fields => '\x7b' :: members fields ++ ['\x7d']
  | .illegible => ['"', '\\', 'u', 'd', '8', '0', '0', '"']

def elements : List Json → List Char
  | [] => []
  | [j] => value j
  | j :: rest => value j ++ ',' :: elements rest

def members : List (String × Json) → List Char
  | [] => []
  | [(name, j)] => quoted name ++ ':' :: value j
  | (name, j) :: rest => quoted name ++ ':' :: value j ++ ',' :: members rest

end

end Printer

/-- The compact text of a document. -/
def render (j : Json) : String := String.ofList (Printer.value j)

end DeltaRing.Json
