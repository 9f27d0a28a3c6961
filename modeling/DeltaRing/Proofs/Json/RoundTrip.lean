import DeltaRing.Json.Printer
import DeltaRing.Json.Reader
import Mathlib.Data.List.Induction
import Mathlib.Order.MinMax
import Mathlib.Tactic.Common

/-!
Printed documents read back.

A document that holds integers of the words only, no decimal and nothing illegible, and that is
nested no deeper than there is room for, is what its compact text reads as. Of a deeper one all is
read but what stands in too many arrays and objects. Every reader is shown to take exactly the
printed part off a text and to leave the rest, so the facts about parts are put together in the
order in which the parts are printed.
-/

namespace DeltaRing.Json

/-- A document that can be read back where `room` arrays and objects may be open. -/
inductive Faithful : Nat → Json → Prop
  | null {room : Nat} : Faithful room .null
  | bool {room : Nat} (b : Bool) : Faithful room (.bool b)
  | int {room : Nat} {n : Int} : -(word63 : Int) ≤ n → n < word64 → Faithful room (.int n)
  | text {room : Nat} (s : String) : Faithful room (.text s)
  | array {room : Nat} {items : List Json} :
    (∀ j ∈ items, Faithful room j) → Faithful (room + 1) (.array items)
  | object {room : Nat} {fields : List (String × Json)} :
    (∀ m ∈ fields, Faithful room m.2) → Faithful (room + 1) (.object fields)

lemma Faithful.mono {room room' : Nat} {j : Json} (h : Faithful room j) (hle : room ≤ room') :
    Faithful room' j := by
  induction h generalizing room' with
  | null => exact .null
  | bool b => exact .bool b
  | int hlow hhigh => exact .int hlow hhigh
  | text s => exact .text s
  | array _ ih =>
    obtain ⟨r, rfl⟩ := Nat.exists_eq_succ_of_ne_zero (show room' ≠ 0 by omega)
    exact .array fun j hj => ih j hj (by omega)
  | object _ ih =>
    obtain ⟨r, rfl⟩ := Nat.exists_eq_succ_of_ne_zero (show room' ≠ 0 by omega)
    exact .object fun m hm => ih m hm (by omega)

/-! ### How deep a document is -/

mutual

def nesting : Json → Nat
  | .array items => nestingItems items + 1
  | .object members => nestingMembers members + 1
  | _ => 0

def nestingItems : List Json → Nat
  | [] => 0
  | j :: rest => max (nesting j) (nestingItems rest)

def nestingMembers : List (String × Json) → Nat
  | [] => 0
  | (_, j) :: rest => max (nesting j) (nestingMembers rest)

end

lemma nestingItems_le_iff {items : List Json} {n : Nat} :
    nestingItems items ≤ n ↔ ∀ j ∈ items, j.nesting ≤ n := by
  induction items with
  | nil => simp [nestingItems]
  | cons j items ih => simp [nestingItems, ih]

lemma nestingMembers_le_iff {fields : List (String × Json)} {n : Nat} :
    nestingMembers fields ≤ n ↔ ∀ m ∈ fields, m.2.nesting ≤ n := by
  induction fields with
  | nil => simp [nestingMembers]
  | cons m fields ih => simp [nestingMembers, ih]

lemma lt_nestingItems_iff {items : List Json} {n : Nat} :
    n < nestingItems items ↔ ∃ j ∈ items, n < j.nesting := by
  rw [← not_le, nestingItems_le_iff]
  simp

lemma lt_nestingMembers_iff {fields : List (String × Json)} {n : Nat} :
    n < nestingMembers fields ↔ ∃ m ∈ fields, n < m.2.nesting := by
  rw [← not_le, nestingMembers_le_iff]
  simp

lemma Faithful.nesting_le {room : Nat} {j : Json} (h : Faithful room j) : j.nesting ≤ room := by
  induction h with
  | null => exact Nat.zero_le _
  | bool b => exact Nat.zero_le _
  | int _ _ => exact Nat.zero_le _
  | text s => exact Nat.zero_le _
  | array _ ih => exact Nat.succ_le_succ (nestingItems_le_iff.mpr ih)
  | object _ ih => exact Nat.succ_le_succ (nestingMembers_le_iff.mpr ih)

/-! ### What a reader has room for -/

mutual

/-- What is left of a document where `room` arrays and objects may be open. -/
def clip (room : Nat) : Json → Json
  | .array items => Reader.nested room (.array (clipItems (room - 1) items))
  | .object members => Reader.nested room (.object (clipMembers (room - 1) members))
  | j => j

def clipItems (room : Nat) : List Json → List Json
  | [] => []
  | j :: rest => clip room j :: clipItems room rest

def clipMembers (room : Nat) : List (String × Json) → List (String × Json)
  | [] => []
  | (name, j) :: rest => (name, clip room j) :: clipMembers room rest

end

section

variable {room : Nat} {j : Json} {items : List Json} {fields : List (String × Json)}

lemma clipItems_eq_map : clipItems room items = items.map (clip room) := by
  induction items with
  | nil => rfl
  | cons j items ih => rw [clipItems, ih, List.map_cons]

lemma clipMembers_eq_map : clipMembers room fields = fields.map fun m => (m.1, m.2.clip room) := by
  induction fields with
  | nil => rfl
  | cons m fields ih => rw [clipMembers, ih, List.map_cons]

@[simp] lemma clip_array_zero : (array items).clip 0 = .illegible := rfl

@[simp] lemma clip_object_zero : (object fields).clip 0 = .illegible := rfl

@[simp] lemma clip_array_succ :
    (array items).clip (room + 1) = .array (items.map (clip room)) := by
  rw [clip, Reader.nested, if_neg (Nat.succ_ne_zero _), Nat.add_sub_cancel, clipItems_eq_map]

@[simp] lemma clip_object_succ :
    (object fields).clip (room + 1) = .object (fields.map fun m => (m.1, m.2.clip room)) := by
  rw [clip, Reader.nested, if_neg (Nat.succ_ne_zero _), Nat.add_sub_cancel, clipMembers_eq_map]

end

mutual

/-- Nothing is lost of a document for which there is room. -/
lemma clip_eq_self {room : Nat} : ∀ {j : Json}, j.nesting ≤ room → j.clip room = j
  | .array items, h => by
    obtain ⟨room, rfl⟩ := Nat.exists_eq_add_one_of_ne_zero (Nat.ne_zero_of_lt h)
    rw [clip_array_succ, ← clipItems_eq_map, clipItems_eq_self (Nat.le_of_succ_le_succ h)]
  | .object fields, h => by
    obtain ⟨room, rfl⟩ := Nat.exists_eq_add_one_of_ne_zero (Nat.ne_zero_of_lt h)
    rw [clip_object_succ, ← clipMembers_eq_map, clipMembers_eq_self (Nat.le_of_succ_le_succ h)]
  | .null, _ => rfl
  | .bool _, _ => rfl
  | .int _, _ => rfl
  | .decimal _, _ => rfl
  | .text _, _ => rfl
  | .illegible, _ => rfl

lemma clipItems_eq_self {room : Nat} : ∀ {items : List Json}, nestingItems items ≤ room →
    clipItems room items = items
  | [], _ => rfl
  | _ :: _, h => by
    rw [clipItems, clip_eq_self (Nat.le_trans (Nat.le_max_left ..) h),
      clipItems_eq_self (Nat.le_trans (Nat.le_max_right ..) h)]

lemma clipMembers_eq_self {room : Nat} : ∀ {fields : List (String × Json)},
    nestingMembers fields ≤ room → clipMembers room fields = fields
  | [], _ => rfl
  | (_, _) :: _, h => by
    rw [clipMembers, clip_eq_self (Nat.le_trans (Nat.le_max_left ..) h),
      clipMembers_eq_self (Nat.le_trans (Nat.le_max_right ..) h)]

end

mutual

/-- Something is illegible in what is left of a deeper one. -/
lemma legible_clip {room : Nat} : ∀ {j : Json}, room < j.nesting → (j.clip room).legible = false
  | .array items, h => by
    cases room with
    | zero => rfl
    | succ room =>
      rw [clip_array_succ, legible, ← clipItems_eq_map]
      exact legibleItems_clip (Nat.lt_of_succ_lt_succ h)
  | .object fields, h => by
    cases room with
    | zero => rfl
    | succ room =>
      rw [clip_object_succ, legible, ← clipMembers_eq_map]
      exact legibleMembers_clip (Nat.lt_of_succ_lt_succ h)

lemma legibleItems_clip {room : Nat} : ∀ {items : List Json}, room < nestingItems items →
    legibleItems (clipItems room items) = false
  | _ :: _, h => by
    rw [clipItems, legibleItems, Bool.and_eq_false_iff]
    exact (lt_max_iff.mp h).imp legible_clip legibleItems_clip

lemma legibleMembers_clip {room : Nat} : ∀ {fields : List (String × Json)},
    room < nestingMembers fields → legibleMembers (clipMembers room fields) = false
  | (_, _) :: _, h => by
    rw [clipMembers, legibleMembers, Bool.and_eq_false_iff]
    exact (lt_max_iff.mp h).imp legible_clip legibleMembers_clip

end

/-! ### Nothing illegible -/

lemma legibleItems_iff {items : List Json} :
    legibleItems items = true ↔ ∀ j ∈ items, j.legible = true := by
  induction items with
  | nil => simp [legibleItems]
  | cons j items ih => simp [legibleItems, ih]

lemma legibleMembers_iff {fields : List (String × Json)} :
    legibleMembers fields = true ↔ ∀ m ∈ fields, m.2.legible = true := by
  induction fields with
  | nil => simp [legibleMembers]
  | cons m fields ih => simp [legibleMembers, ih]

lemma Faithful.legible {room : Nat} {j : Json} (h : Faithful room j) : j.legible = true := by
  induction h with
  | null => rfl
  | bool b => rfl
  | int _ _ => rfl
  | text s => rfl
  | array _ ih => exact legibleItems_iff.mpr ih
  | object _ ih => exact legibleMembers_iff.mpr ih

/-! ### Lists -/

lemma mapM_read {α β : Type} {read : β → Option α} {write : α → β} {l : List α}
    (h : ∀ a ∈ l, read (write a) = some a) : (l.map write).mapM read = some l := by
  induction l with
  | nil => rfl
  | cons a l ih =>
    rw [List.map_cons, List.mapM_cons, h a (by simp), ih fun b hb => h b (by simp [hb])]
    rfl

namespace Reader

/-- The text goes on as it may after a value: it ends or has a comma or a closing bracket. -/
def Follows (cs : List Char) : Prop := ∀ c ∈ cs.head?, c = ',' ∨ c = ']' ∨ c = '\x7d'

/-! ### Numbers -/

lemma digitChar_spec {d : Nat} (h : d < 10) :
    (Nat.digitChar d).isDigit = true ∧ digitValue (Nat.digitChar d) = d ∧
      (Nat.digitChar d = '0' → d = 0) := by
  revert d
  decide

lemma digits_ind {P : Nat → List Char → Prop} (hone : ∀ n < 10, P n [Nat.digitChar n])
    (hmore : ∀ n ds, 10 ≤ n → P (n / 10) ds → P n (ds ++ [Nat.digitChar (n % 10)])) (n : Nat) :
    P n (Printer.digits n) := by
  fun_induction Printer.digits n with
  | case1 n h => exact hone n h
  | case2 n h ih => exact hmore n _ (by omega) ih

lemma isDigit_of_mem_digits (n : Nat) : ∀ c ∈ Printer.digits n, c.isDigit = true := by
  refine digits_ind (P := fun _ ds => ∀ c ∈ ds, c.isDigit = true) (fun n h => ?_)
    (fun n ds _ ih => ?_) n
  · simpa using (digitChar_spec h).1
  · intro c hc
    rcases List.mem_append.mp hc with hc | hc
    · exact ih c hc
    · rw [List.mem_singleton.mp hc]
      exact (digitChar_spec (Nat.mod_lt n (by decide))).1

lemma wholeDigits_digits (n : Nat) (h : n < word64) :
    wholeDigits (Printer.digits n) = (n, 0) := by
  revert h
  refine digits_ind (P := fun n ds => n < word64 → wholeDigits ds = (n, 0)) (fun n h hn => ?_)
    (fun n ds _ ih hn => ?_) n
  · simp [wholeDigits, (digitChar_spec h).2.1, hn]
  · have hlast := (digitChar_spec (Nat.mod_lt n (show 0 < 10 by decide))).2.1
    have hn' : n / 10 * 10 + n % 10 = n := by omega
    rw [wholeDigits] at ih ⊢
    rw [List.foldl_append, ih (by omega)]
    simp [hlast, hn', hn]

lemma digits_eq (n : Nat) : Printer.digits n = ['0'] ∨
    ∃ c cs, Printer.digits n = c :: cs ∧ c ≠ '0' := by
  have h : (0 < n → ∃ c cs, Printer.digits n = c :: cs ∧ c ≠ '0') := by
    refine digits_ind (P := fun n ds => 0 < n → ∃ c cs, ds = c :: cs ∧ c ≠ '0')
      (fun n h hn => ?_) (fun n ds hn ih _ => ?_) n
    · exact ⟨_, [], rfl, fun heq => by have := (digitChar_spec h).2.2 heq; omega⟩
    · obtain ⟨c, cs, rfl, hc⟩ := ih (by omega)
      exact ⟨c, _, rfl, hc⟩
  rcases Nat.eq_zero_or_pos n with rfl | hn
  · exact .inl (by simp [Printer.digits])
  · exact .inr (h hn)

variable {rest : List Char}

lemma takeWhile_digits (n : Nat) (h : Follows rest) :
    (Printer.digits n ++ rest).takeWhile Char.isDigit = Printer.digits n ∧
      (Printer.digits n ++ rest).dropWhile Char.isDigit = rest := by
  have hrest : ∀ c ∈ rest.head?, c.isDigit = false := fun c hc => by
    rcases h c hc with rfl | rfl | rfl <;> decide
  rw [List.takeWhile_append_of_pos (isDigit_of_mem_digits n),
    List.dropWhile_append_of_pos (isDigit_of_mem_digits n)]
  cases rest with
  | nil => simp
  | cons c cs => simp [hrest c rfl]

lemma afterWhole_of_follows {negative : Bool} {significand : Nat} (h : Follows rest) :
    afterWhole negative significand 0 rest =
      if !negative then some (.int significand, rest)
      else if 0 < significand ∧ significand ≤ word63 then some (.int (-significand), rest)
      else some (.decimal ⟨true, significand, 0⟩, rest) := by
  cases rest with
  | nil => rfl
  | cons c cs =>
    rcases h c rfl with rfl | rfl | rfl <;> rfl

def Numeric (c : Char) : Prop := c = '-' ∨ c.isDigit = true

lemma Numeric.ne {c : Char} (h : Numeric c) {d : Char} (hd : ¬ Numeric d) : c ≠ d := by
  rintro rfl
  exact hd h

instance (c : Char) : Decidable (Numeric c) := inferInstanceAs (Decidable (_ ∨ _))

lemma number_of_digits {ds : List Char} (hsign : ∀ cs, ds ++ rest ≠ '-' :: cs)
    (hzero : ds = ['0'] ∨ ∃ c cs, ds = c :: cs ∧ c ≠ '0')
    (htake : (ds ++ rest).takeWhile Char.isDigit = ds)
    (hdrop : (ds ++ rest).dropWhile Char.isDigit = rest) :
    number (ds ++ rest) = afterWhole false (wholeDigits ds).1 (wholeDigits ds).2 rest ∧
      number ('-' :: (ds ++ rest)) =
        afterWhole true (wholeDigits ds).1 (wholeDigits ds).2 rest := by
  constructor
  · rw [number]
    · simp only [htake, hdrop]
      rcases hzero with rfl | ⟨c, cs, rfl, hc⟩
      · rfl
      · split <;> simp_all
    · exact hsign
  · simp only [number, htake, hdrop]
    rcases hzero with rfl | ⟨c, cs, rfl, hc⟩
    · rfl
    · split <;> simp_all

lemma number_integer {n : Int} (hlow : -(word63 : Int) ≤ n) (hhigh : n < word64)
    (h : Follows rest) : number (Printer.integer n ++ rest) = some (.int n, rest) := by
  have hnumber : ∀ m < word64,
      number (Printer.digits m ++ rest) = afterWhole false m 0 rest ∧
        number ('-' :: (Printer.digits m ++ rest)) = afterWhole true m 0 rest := by
    intro m hm
    obtain ⟨htake, hdrop⟩ := takeWhile_digits m h
    have hsign : ∀ cs, Printer.digits m ++ rest ≠ '-' :: cs := by
      intro cs heq
      have hdigit := isDigit_of_mem_digits m
      rcases digits_eq m with hz | ⟨c, cs', hc, -⟩
      · rw [hz] at heq
        exact absurd (List.cons.inj heq).1 (by decide)
      · rw [hc] at heq hdigit
        rw [(List.cons.inj heq).1] at hdigit
        exact absurd (hdigit '-' (by simp)) (by decide)
    have := number_of_digits hsign (digits_eq m) htake hdrop
    rwa [wholeDigits_digits m hm] at this
  cases n with
  | ofNat m =>
    rw [Printer.integer, (hnumber m (by simpa using hhigh)).1, afterWhole_of_follows h]
    rfl
  | negSucc m =>
    have hm : m + 1 ≤ word63 := by omega
    rw [Printer.integer, List.cons_append,
      (hnumber (m + 1) (by simp only [word63, word64] at hm ⊢; omega)).2, afterWhole_of_follows h]
    simp [hm, Int.negSucc_eq]

lemma integer_head (n : Int) : ∃ c cs, Printer.integer n = c :: cs ∧ Numeric c := by
  cases n with
  | ofNat m =>
    rcases digits_eq m with hz | ⟨c, cs, hc, -⟩
    · exact ⟨'0', [], hz, by decide⟩
    · exact ⟨c, cs, hc, .inr (isDigit_of_mem_digits m c (by simp [hc]))⟩
  | negSucc m => exact ⟨'-', _, rfl, by decide⟩

/-! ### Strings -/

def pieceOf (c : Char) : Piece :=
  if c.toNat < 0x20 ∧ c ≠ '\x08' ∧ c ≠ '\x0c' ∧ c ≠ '\n' ∧ c ≠ '\r' ∧ c ≠ '\t' then .unit c.toNat
  else .char c

lemma hexUnit_control {n : Nat} (h : n < 0x20) :
    hexUnit '0' '0' (Nat.digitChar (n / 16)) (Nat.digitChar (n % 16)) = some n := by
  revert n
  decide

lemma pieces_escapedChar (letter : Char) {c : Char} (h : escapedChar letter = some c)
    (hu : letter ≠ 'u') (cs : List Char) :
    pieces ('\\' :: letter :: cs) = (pieces cs).map fun p => (.char c :: p.1, p.2) := by
  rw [pieces]
  · simp only [h, Option.bind_eq_bind, Option.bind_some]
    cases pieces cs <;> rfl
  · rintro _ _ _ _ _ rfl
    exact absurd rfl hu

lemma pieces_plain {c : Char} (hquote : c ≠ '"') (hslash : c ≠ '\\') (hc : 0x20 ≤ c.toNat)
    (cs : List Char) : pieces (c :: cs) = (pieces cs).map fun p => (.char c :: p.1, p.2) := by
  have hstray : c ≠ strayMark := by
    rintro rfl
    exact absurd hc (by decide)
  rw [pieces]
  · rw [if_neg hstray, if_neg (by simp [hslash]; omega)]
    cases pieces cs <;> rfl
  · exact hquote
  · exact fun _ _ _ _ _ h => absurd h hslash
  · exact fun _ _ h => absurd h hslash

lemma pieces_escape (c : Char) (cs : List Char) :
    pieces (Printer.escape c ++ cs) = (pieces cs).map fun p => (pieceOf c :: p.1, p.2) := by
  unfold Printer.escape
  split_ifs with h1 h2 h3 h4 h5 h6 h7 h8
  · subst h1
    exact pieces_escapedChar '"' rfl (by decide) cs
  · subst h2
    exact pieces_escapedChar '\\' rfl (by decide) cs
  · subst h3
    exact pieces_escapedChar 'b' rfl (by decide) cs
  · subst h4
    exact pieces_escapedChar 'f' rfl (by decide) cs
  · subst h5
    exact pieces_escapedChar 'n' rfl (by decide) cs
  · subst h6
    exact pieces_escapedChar 'r' rfl (by decide) cs
  · subst h7
    exact pieces_escapedChar 't' rfl (by decide) cs
  · have hpiece : pieceOf c = .unit c.toNat := if_pos ⟨h8, h3, h4, h5, h6, h7⟩
    simp only [List.cons_append, List.nil_append, pieces, hexUnit_control h8, hpiece,
      Option.bind_eq_bind, Option.bind_some]
    cases pieces cs <;> rfl
  · have hpiece : pieceOf c = .char c := if_neg fun h => h8 h.1
    rw [hpiece]
    exact pieces_plain h1 h2 (by omega) cs

lemma assemble_unit {n : Nat} (hn : n < 0x20) (ps : List Piece) :
    assemble (.unit n :: ps) = (assemble ps).map (Char.ofNat n :: ·) := by
  have hhigh : isHighHalf n = false := by simp [isHighHalf]; omega
  have hlow : isLowHalf n = false := by simp [isLowHalf]; omega
  cases ps with
  | nil => simp [assemble, hhigh, hlow]
  | cons p ps => cases p <;> simp [assemble, hhigh, hlow]

lemma assemble_pieceOf (cs : List Char) : assemble (cs.map pieceOf) = some cs := by
  induction cs with
  | nil => rfl
  | cons c cs ih =>
    rw [List.map_cons, pieceOf]
    split
    · rename_i h
      rw [assemble_unit h.1, ih, Char.ofNat_toNat]
      rfl
    · rw [assemble, ih]
      rfl

lemma pieces_quoted (cs : List Char) :
    pieces (cs.flatMap Printer.escape ++ '"' :: rest) = some (cs.map pieceOf, rest) := by
  induction cs with
  | nil => rfl
  | cons c cs ih =>
    rw [List.flatMap_cons, List.append_assoc, pieces_escape, ih]
    rfl

/-- What is printed between quotes is read as the string. -/
lemma literal_quoted (s : String) :
    literal (s.toList.flatMap Printer.escape ++ '"' :: rest) = some (some s, rest) := by
  rw [literal, pieces_quoted]
  simp [assemble_pieceOf, String.ofList_toList]

/-! ### Values -/

lemma skipBlanks_cons {c : Char} (h : isBlank c = false) (cs : List Char) :
    skipBlanks (c :: cs) = c :: cs := by
  simp [skipBlanks, h]

/-- A value begins with a character that is no blank and closes nothing. -/
lemma value_head {room : Nat} {j : Json} (h : Faithful room j) :
    ∃ c cs, Printer.value j = c :: cs ∧ isBlank c = false ∧ c ≠ ']' ∧ c ≠ '\x7d' := by
  cases h with
  | null => exact ⟨_, _, rfl, by decide⟩
  | bool b => cases b <;> exact ⟨_, _, rfl, by decide⟩
  | @int _ n hlow hhigh =>
    obtain ⟨c, cs, hc, hnumeric⟩ := integer_head n
    refine ⟨c, cs, hc, ?_, hnumeric.ne (by decide), hnumeric.ne (by decide)⟩
    simp [isBlank, hnumeric.ne (show ¬ Numeric ' ' by decide),
      hnumeric.ne (show ¬ Numeric '\n' by decide), hnumeric.ne (show ¬ Numeric '\t' by decide),
      hnumeric.ne (show ¬ Numeric '\r' by decide)]
  | text s => exact ⟨_, _, rfl, by decide⟩
  | array _ => exact ⟨_, _, rfl, by decide⟩
  | object _ => exact ⟨_, _, rfl, by decide⟩

/-- The reader takes exactly the printed document off a text, and reads of it what there is room
for. -/
def Takes (room : Nat) (j : Json) : Prop :=
  ∀ fuel rest, (Printer.value j).length ≤ fuel → Follows rest →
    value fuel room (Printer.value j ++ rest) = some (j.clip room, rest)

lemma value_numeric {c : Char} (h : Numeric c) (fuel room : Nat) (cs : List Char) :
    value (fuel + 1) room (c :: cs) = number (c :: cs) := by
  have hblank : isBlank c = false := by
    simp [isBlank, h.ne (show ¬ Numeric ' ' by decide),
      h.ne (show ¬ Numeric '\n' by decide), h.ne (show ¬ Numeric '\t' by decide),
      h.ne (show ¬ Numeric '\r' by decide)]
  rw [value, skipBlanks_cons hblank]
  split
  · exact absurd (List.cons.inj ‹_›).1 (h.ne (by decide))
  · exact absurd (List.cons.inj ‹_›).1 (h.ne (by decide))
  · exact absurd (List.cons.inj ‹_›).1 (h.ne (by decide))
  · exact absurd (List.cons.inj ‹_›).1 (h.ne (by decide))
  · exact absurd (List.cons.inj ‹_›).1 (h.ne (by decide))
  · exact absurd (List.cons.inj ‹_›).1 (h.ne (by decide))
  · rfl

lemma elements_printed {room fuel : Nat} {items : List Json} (hne : items ≠ [])
    (h : ∀ j ∈ items, Takes room j) (hfuel : (Printer.elements items).length < fuel) :
    elements fuel room (Printer.elements items ++ ']' :: rest) =
      some (items.map (clip room), rest) := by
  induction items generalizing fuel with
  | nil => exact absurd rfl hne
  | cons j items ih =>
    obtain ⟨fuel, rfl⟩ := Nat.exists_eq_succ_of_ne_zero (show fuel ≠ 0 by omega)
    have hj : Takes room j := h j (by simp)
    cases items with
    | nil =>
      simp only [Printer.elements] at hfuel ⊢
      rw [elements, hj fuel _ (by omega) (by simp [Follows])]
      simp [skipBlanks, isBlank]
    | cons j' items =>
      simp only [Printer.elements, List.length_append, List.length_cons] at hfuel ⊢
      rw [List.append_assoc, elements, hj fuel _ (by omega) (by simp [Follows])]
      have hrest := ih (by simp) (fun i hi => h i (by simp [hi]))
        (show _ < fuel by omega)
      simp [skipBlanks, isBlank, hrest]

/-- A name, a colon and a value are taken off, and then a comma with what it brings or a brace. -/
lemma members_step {room fuel : Nat} {j : Json} (hj : Takes room j) (name : String)
    (hfuel : (Printer.value j).length ≤ fuel) (rest : List Char) :
    members (fuel + 1) room (Printer.quoted name ++ ':' :: (Printer.value j ++ ',' :: rest)) =
        (members fuel room rest).map (fun p => ((some name, j.clip room) :: p.1, p.2)) ∧
      members (fuel + 1) room (Printer.quoted name ++ ':' :: (Printer.value j ++ '\x7d' :: rest)) =
        some ([(some name, j.clip room)], rest) := by
  constructor <;>
    simp only [Printer.quoted, members, List.cons_append, List.append_assoc, List.nil_append,
      skipBlanks_cons (show isBlank '"' = false by decide), literal_quoted, Option.bind_eq_bind,
      Option.bind_some, skipBlanks_cons (show isBlank ':' = false by decide)]
  · rw [hj fuel _ hfuel (by simp [Follows])]
    simp only [Option.bind_some, skipBlanks_cons (show isBlank ',' = false by decide)]
    cases members fuel room rest <;> rfl
  · rw [hj fuel _ hfuel (by simp [Follows])]
    rfl

lemma members_printed {room fuel : Nat} {fields : List (String × Json)} (hne : fields ≠ [])
    (h : ∀ m ∈ fields, Takes room m.2) (hfuel : (Printer.members fields).length < fuel) :
    members fuel room (Printer.members fields ++ '\x7d' :: rest) =
      some (fields.map fun m => (some m.1, m.2.clip room), rest) := by
  induction fields generalizing fuel with
  | nil => exact absurd rfl hne
  | cons m fields ih =>
    obtain ⟨name, j⟩ := m
    obtain ⟨fuel, rfl⟩ := Nat.exists_eq_succ_of_ne_zero (show fuel ≠ 0 by omega)
    have hj : Takes room j := h (name, j) (by simp)
    cases fields with
    | nil =>
      simp only [Printer.members, List.length_append, List.length_cons] at hfuel
      rw [Printer.members, List.append_assoc, List.cons_append,
        (members_step hj name (by omega) rest).2]
      rfl
    | cons m' fields =>
      simp only [Printer.members, List.length_append, List.length_cons] at hfuel
      have hrest := ih (by simp) (fun i hi => h i (by simp [hi]))
        (show _ < fuel by omega)
      rw [Printer.members]
      · simp only [List.append_assoc, List.cons_append]
        rw [(members_step hj name (by omega) _).1, hrest]
        rfl
      · simp

lemma ofMembers_clip {room : Nat} (fields : List (String × Json)) :
    ofMembers (fields.map fun m => (some m.1, m.2.clip room)) =
      .object (clipMembers room fields) := by
  have hnames : (fields.map fun m => (some m.1, m.2.clip room)) =
      (clipMembers room fields).map fun m => (some m.1, m.2) := by
    rw [clipMembers_eq_map, List.map_map]
    rfl
  rw [hnames, ofMembers, mapM_read]
  exact fun _ _ => rfl

lemma elements_head {room : Nat} {items : List Json} (hne : items ≠ [])
    (h : ∀ j ∈ items, Faithful room j) :
    ∃ c cs, Printer.elements items = c :: cs ∧ isBlank c = false ∧ c ≠ ']' := by
  cases items with
  | nil => exact absurd rfl hne
  | cons j items =>
    obtain ⟨c, cs, hc, hblank, hclose, -⟩ := value_head (h j (by simp))
    cases items with
    | nil => exact ⟨c, cs, hc, hblank, hclose⟩
    | cons j' items => exact ⟨c, _, by rw [Printer.elements, hc]; rfl; simp, hblank, hclose⟩

lemma members_head {fields : List (String × Json)} (hne : fields ≠ []) :
    ∃ cs, Printer.members fields = '"' :: cs := by
  cases fields with
  | nil => exact absurd rfl hne
  | cons m fields =>
    cases fields with
    | nil => exact ⟨_, rfl⟩
    | cons m' fields => exact ⟨_, rfl⟩

lemma array_printed {room fuel : Nat} {items : List Json}
    (hhead : items ≠ [] →
      ∃ c cs, Printer.elements items = c :: cs ∧ isBlank c = false ∧ c ≠ ']')
    (h : ∀ j ∈ items, Takes (room - 1) j) (hfuel : (Printer.elements items).length < fuel) :
    value (fuel + 1) room ('[' :: (Printer.elements items ++ ']' :: rest)) =
      some ((Json.array items).clip room, rest) := by
  rw [value, skipBlanks_cons (by decide), clip, clipItems_eq_map]
  by_cases hne : items = []
  · subst hne
    simp [Printer.elements, skipBlanks_cons (show isBlank ']' = false by decide)]
  · obtain ⟨c, cs, hc, hblank, hclose⟩ := hhead hne
    have hread : elements fuel (room - 1) (Printer.elements items ++ ']' :: rest) = _ :=
      elements_printed hne h hfuel
    rw [hc, List.cons_append] at hread
    simp only [hc, List.cons_append, skipBlanks_cons hblank]
    split
    · exact absurd (List.cons.inj ‹_›).1 hclose
    · simp [hread]

lemma object_printed {room fuel : Nat} {fields : List (String × Json)}
    (h : ∀ m ∈ fields, Takes (room - 1) m.2) (hfuel : (Printer.members fields).length < fuel) :
    value (fuel + 1) room ('\x7b' :: (Printer.members fields ++ '\x7d' :: rest)) =
      some ((Json.object fields).clip room, rest) := by
  rw [value, skipBlanks_cons (by decide), clip]
  by_cases hne : fields = []
  · subst hne
    simp [Printer.members, skipBlanks_cons (show isBlank '\x7d' = false by decide), clipMembers]
  · obtain ⟨cs, hc⟩ := members_head hne
    have hread : members fuel (room - 1) (Printer.members fields ++ '\x7d' :: rest) = _ :=
      members_printed hne h hfuel
    rw [hc, List.cons_append] at hread
    simp only [hc, List.cons_append, skipBlanks_cons (show isBlank '"' = false by decide)]
    simp [hread, ofMembers_clip]

lemma exists_fuel {room fuel : Nat} {j : Json} (h : Faithful room j)
    (hfuel : (Printer.value j).length ≤ fuel) : ∃ f, fuel = f + 1 := by
  obtain ⟨c, cs, hc, -⟩ := value_head h
  refine Nat.exists_eq_succ_of_ne_zero ?_
  rintro rfl
  simp [hc] at hfuel

/-- **A printed document reads as what there is room for of it**, whatever it is followed by. -/
theorem takes {depth : Nat} {j : Json} (h : Faithful depth j) (room : Nat) : Takes room j := by
  induction h generalizing room with
  | null =>
    intro fuel rest hfuel _
    obtain ⟨fuel, rfl⟩ := exists_fuel (.null : Faithful 0 .null) hfuel
    rfl
  | bool b =>
    intro fuel rest hfuel _
    obtain ⟨fuel, rfl⟩ := exists_fuel (.bool b : Faithful 0 _) hfuel
    cases b <;> rfl
  | @int _ n hlow hhigh =>
    intro fuel rest hfuel hrest
    obtain ⟨fuel, rfl⟩ := exists_fuel (.int hlow hhigh : Faithful 0 _) hfuel
    obtain ⟨c, cs, hc, hnumeric⟩ := integer_head n
    rw [Printer.value, hc, List.cons_append, value_numeric hnumeric, ← List.cons_append, ← hc,
      number_integer hlow hhigh hrest, clip]
    all_goals simp
  | text s =>
    intro fuel rest hfuel _
    obtain ⟨fuel, rfl⟩ := exists_fuel (.text s : Faithful 0 _) hfuel
    simp only [Printer.value, Printer.quoted, List.cons_append, List.append_assoc, List.nil_append]
    rw [value, skipBlanks_cons (by decide)]
    simp [literal_quoted, clip]
  | array hitems ih =>
    intro fuel rest hfuel _
    obtain ⟨fuel, rfl⟩ := exists_fuel (.array hitems) hfuel
    simp only [Printer.value, List.length_append, List.length_cons] at hfuel
    simp only [Printer.value, List.cons_append, List.append_assoc, List.nil_append]
    exact array_printed (elements_head · hitems) (fun j hj => ih j hj _) (by omega)
  | object hfields ih =>
    intro fuel rest hfuel _
    obtain ⟨fuel, rfl⟩ := exists_fuel (.object hfields) hfuel
    simp only [Printer.value, List.length_append, List.length_cons] at hfuel
    simp only [Printer.value, List.cons_append, List.append_assoc, List.nil_append]
    exact object_printed (fun m hm => ih m hm _) (by omega)

lemma document_value {depth : Nat} {j : Json} (h : Faithful depth j) :
    document (Printer.value j) = some (j.clip maxOpen) := by
  have hread := takes h maxOpen (2 * (Printer.value j).length + 1) [] (by omega) (by simp [Follows])
  rw [List.append_nil] at hread
  rw [document, hread]
  rfl

end Reader

/-! ### Texts -/

namespace Printer

lemma notMem_escape (c : Char) : Reader.strayMark ∉ escape c := by
  have hhex : ∀ n < 16, Reader.strayMark ≠ Nat.digitChar n := by decide
  unfold escape
  split_ifs with h1 h2 h3 h4 h5 h6 h7 hlow
  iterate 7 decide
  · simp only [List.mem_cons, List.not_mem_nil, or_false, not_or]
    exact ⟨by decide, by decide, by decide, by decide, hhex (c.toNat / 16) (by omega),
      hhex (c.toNat % 16) (by omega)⟩
  · intro hmem
    rw [List.mem_singleton] at hmem
    exact hlow (by rw [← hmem]; decide)

lemma notMem_quoted (s : String) : Reader.strayMark ∉ quoted s := by
  have h : ∀ c ∈ s.toList, Reader.strayMark ∉ escape c := fun c _ => notMem_escape c
  simpa [quoted, Reader.strayMark] using h

lemma notMem_elements {items : List Json} (h : ∀ j ∈ items, Reader.strayMark ∉ value j) :
    Reader.strayMark ∉ elements items := by
  induction items with
  | nil => simp [elements]
  | cons j items ih =>
    have hrest := ih fun i hi => h i (by simp [hi])
    cases items with
    | nil => exact h j (by simp)
    | cons j' items =>
      rw [elements]
      · simpa [Reader.strayMark] using ⟨h j (by simp), hrest⟩
      · simp

lemma notMem_members {fields : List (String × Json)}
    (h : ∀ m ∈ fields, Reader.strayMark ∉ value m.2) : Reader.strayMark ∉ members fields := by
  induction fields with
  | nil => simp [members]
  | cons m fields ih =>
    have hrest := ih fun i hi => h i (by simp [hi])
    have hm := And.intro (notMem_quoted m.1) (h m (by simp))
    cases fields with
    | nil => simpa [members, Reader.strayMark] using hm
    | cons m' fields =>
      rw [members]
      · simpa [Reader.strayMark] using ⟨hm.1, hm.2, hrest⟩
      · simp

lemma notMem_value {room : Nat} {j : Json} (h : Faithful room j) :
    Reader.strayMark ∉ value j := by
  induction h with
  | null => decide
  | bool b => cases b <;> decide
  | @int _ n _ _ =>
    have hdigits : ∀ m, Reader.strayMark ∉ digits m := fun m hmem =>
      absurd (Reader.isDigit_of_mem_digits m _ hmem) (by decide)
    cases n with
    | ofNat m => exact hdigits m
    | negSucc m => simpa [value, integer, Reader.strayMark] using hdigits (m + 1)
  | text s => exact notMem_quoted s
  | array _ ih => simpa [value, Reader.strayMark] using notMem_elements ih
  | object _ ih => simpa [value, Reader.strayMark] using notMem_members ih

end Printer

/-- The compact text of a document reads as what readers have room for of it. -/
theorem read?_render {depth : Nat} {j : Json} (h : Faithful depth j) :
    read? j.render = some (j.clip Reader.maxOpen) := by
  have hstray : j.render.contains Reader.strayMark = false := by
    rw [String.contains_char_eq, render, String.toList_ofList]
    simpa using Printer.notMem_value h
  rw [read?, hstray, if_neg Bool.false_ne_true, render, String.toList_ofList,
    Reader.document_value h]

end DeltaRing.Json
