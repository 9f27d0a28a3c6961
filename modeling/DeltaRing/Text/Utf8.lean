/-!
UTF-8 with mistakes in it.

Bytes are cut into characters, and into stretches that belong to none: a byte that begins no
character, or the longest part of a character that has been begun and not finished. No byte is
lost, and each stretch counts as one.
-/

namespace DeltaRing.Text.Utf8

/-- What the first byte of a character says about it. -/
structure Lead where
  /-- The bits of the code point that the first byte holds. -/
  bits : Nat
  /-- How many bytes follow. -/
  more : Nat
  /-- The bounds of the second byte, which keep out long forms of short codes, surrogates, and codes
  that are too large. -/
  low : UInt8
  high : UInt8

def lead? (b : UInt8) : Option Lead :=
  if b < 0x80 then some ⟨b.toNat, 0, 0x80, 0xbf⟩
  else if b < 0xc2 then none
  else if b < 0xe0 then some ⟨b.toNat - 0xc0, 1, 0x80, 0xbf⟩
  else if b < 0xf0 then
    some ⟨b.toNat - 0xe0, 2, if b = 0xe0 then 0xa0 else 0x80, if b = 0xed then 0x9f else 0xbf⟩
  else if b < 0xf5 then
    some ⟨b.toNat - 0xf0, 3, if b = 0xf0 then 0x90 else 0x80, if b = 0xf4 then 0x8f else 0xbf⟩
  else none

/-- Takes in `more` bytes, the first of them within bounds; nothing if they are not there. -/
def follow (code : Nat) : Nat → UInt8 → UInt8 → List UInt8 → Option Nat × List UInt8
  | 0, _, _, bs => (some code, bs)
  | _ + 1, _, _, [] => (none, [])
  | more + 1, low, high, b :: bs =>
    if low ≤ b ∧ b ≤ high then follow (code * 64 + b.toNat % 64) more 0x80 0xbf bs
    else (none, b :: bs)

theorem follow_length_le (code more : Nat) (low high : UInt8) (bs : List UInt8) :
    (follow code more low high bs).2.length ≤ bs.length := by
  fun_induction follow code more low high bs with
  | case1 => simp
  | case2 => simp
  | case3 _ _ _ _ _ _ _ ih => exact Nat.le_succ_of_le ih
  | case4 => simp

/-- The characters of a text, with nothing for each stretch that belongs to none. -/
def decode : List UInt8 → List (Option Char)
  | [] => []
  | b :: bs =>
    match lead? b with
    | none => none :: decode bs
    | some l =>
      (follow l.bits l.more l.low l.high bs).1.map Char.ofNat
        :: decode (follow l.bits l.more l.low l.high bs).2
termination_by bs => bs.length
decreasing_by
  · simp
  · exact Nat.lt_succ_of_le (follow_length_le ..)

/-- The character of three bytes is given whole; two of its bytes are one stretch, and a byte that
begins no character is another. -/
example : decode [0xe2, 0x82, 0xac, 0x61, 0xe2, 0x82, 0xff] = [some '€', some 'a', none, none] := by
  decide +kernel

end DeltaRing.Text.Utf8
