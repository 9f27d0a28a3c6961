import DeltaRing.Error
import DeltaRing.Proofs.Collections.SortedMap
import DeltaRing.Proofs.Collections.SortedSet
import DeltaRing.Proofs.Json.RoundTrip

/-!
Values that are read back as they were written.

A type is lawful on the wire if each of its values whose numbers fit their words is written as a
document that can be read back, and reads as the value; and if nothing is read of a document that
there was no room for. A value is then what its payload decodes to if it is nested no deeper than a
document may be, and a deeper one does not decode. Records, tagged unions, lists, sets and maps of
lawful types are lawful.
-/

namespace DeltaRing

namespace Json

/-! ### What there is no room for -/

variable {α β : Type} {read : Json → Option α} {j : Json} {items : List Json}
  {fields : List (String × Json)} {names : List String}

/-- Nothing is read of the document where not all of it has room. -/
def Refuses (read : Json → Option α) (j : Json) : Prop :=
  ∀ room, room < j.nesting → read (j.clip room) = none

lemma refuses_of_flat (h : j.nesting = 0) : Refuses read j := fun _ hroom => by
  rw [h] at hroom
  cases hroom

lemma mapM_eq_none {f : β → Option α} {l : List β} (h : ∃ b ∈ l, f b = none) :
    l.mapM f = none := by
  induction l with
  | nil => simp at h
  | cons b l ih =>
    rw [List.mapM_cons]
    simp only [List.mem_cons, exists_eq_or_imp] at h
    rcases h with hb | hl
    · rw [hb]
      rfl
    · rw [ih hl]
      cases f b <;> rfl

namespace Refuses

lemma map {f : α → β} (h : Refuses read j) : Refuses (fun j => (read j).map f) j :=
  fun room hroom => Option.map_eq_none_iff.mpr (h room hroom)

lemma asList (h : ∀ j ∈ items, Refuses read j) : Refuses (Json.asList read) (.array items) := by
  intro room hroom
  cases room with
  | zero => rfl
  | succ room =>
    obtain ⟨j, hj, hdeep⟩ := lt_nestingItems_iff.mp (Nat.lt_of_succ_lt_succ hroom)
    rw [clip_array_succ]
    exact mapM_eq_none ⟨_, List.mem_map_of_mem hj, h j hj room hdeep⟩

lemma asMembers (h : ∀ m ∈ fields, Refuses read m.2) :
    Refuses (Json.asMembers read) (.object fields) := by
  intro room hroom
  cases room with
  | zero => rfl
  | succ room =>
    obtain ⟨m, hm, hdeep⟩ := lt_nestingMembers_iff.mp (Nat.lt_of_succ_lt_succ hroom)
    rw [clip_object_succ]
    refine mapM_eq_none ⟨_, List.mem_map_of_mem hm, ?_⟩
    simp [h m hm room hdeep]

lemma asPair {read' : Json → Option β} {a b : Json} (ha : Refuses read a) (hb : Refuses read' b) :
    Refuses (Json.asPair read read') (.array [a, b]) := by
  intro room hroom
  cases room with
  | zero => rfl
  | succ room =>
    obtain ⟨j, hj, hdeep⟩ := lt_nestingItems_iff.mp (Nat.lt_of_succ_lt_succ hroom)
    rw [clip_array_succ]
    rcases List.mem_pair.mp hj with rfl | rfl
    · simp [Json.asPair, ha room hdeep]
    · simp [Json.asPair, hb room hdeep]

end Refuses

end Json

class LawfulWire (α : Type) [Wire α] where
  /-- The numbers in the value fit the words in which they travel. -/
  Fits : α → Prop
  /-- How many arrays and objects stand in one another in a written value, at most. -/
  depth : Nat
  faithful {a : α} : Fits a → Json.Faithful depth (toJson a)
  toJson_ne_null {a : α} : toJson a ≠ .null
  ofJson?_toJson {a : α} : Fits a → ofJson? (toJson a) = some a
  ofInner?_toJson {a : α} : Fits a → ofInner? (toJson a) = some a
  refuses {a : α} : Json.Refuses (ofJson? : Json → Option α) (toJson a)

namespace LawfulWire

variable {α β : Type}

section

variable [Wire α] [LawfulWire α] [Wire β] [LawfulWire β] {a : α} {room : Nat}

lemma faithful_mono (h : Fits a) (hroom : depth α ≤ room) : Json.Faithful room (toJson a) :=
  (faithful h).mono hroom

lemma faithful_optional {o : Option α} (h : ∀ a ∈ o, Fits a) (hroom : depth α ≤ room) :
    Json.Faithful room (toJson o) := by
  cases o with
  | none => exact .null
  | some a => exact (faithful_mono (h a rfl) hroom : Json.Faithful room (toJson a))

lemma legible (h : Fits a) : (toJson a).legible = true := (faithful h).legible

end

/-! ### Payloads -/

/-- A payload is read as far as there is room for it. -/
lemma decode?_encode [Wire α] {a : α} {room : Nat} (h : Json.Faithful room (toJson a)) :
    Wire.decode? (Wire.encode a) = (ofJson? ((toJson a).clip Json.Reader.maxOpen) : Option α) := by
  have hutf8 : String.fromUTF8? (Wire.text a).toUTF8 = some (Wire.text a) := by
    rw [String.fromUTF8?, dif_pos]
    rfl
  have hread : Json.read? (Wire.text a) = some ((toJson a).clip Json.Reader.maxOpen) :=
    Json.read?_render h
  rw [Wire.decode?, Wire.encode, hutf8]
  simp [Wire.ofText?, hread]

section

variable [Wire α] [LawfulWire α] {a : α}

lemma nesting_le_depth (h : Fits a) : (toJson a).nesting ≤ depth α := (faithful h).nesting_le

/-- The numbers in the value fit their words, and it is nested no deeper than a document may be. -/
structure Travels (a : α) : Prop where
  fits : Fits a
  nesting : (toJson a).nesting ≤ Json.Reader.maxOpen

/-- **A payload decodes to the value that was encoded**, if this can travel. -/
theorem Travels.decode_encode (h : Travels a) : Wire.decode (Wire.encode a) = .ok a := by
  rw [Wire.decode, decode?_encode (faithful h.fits), Json.clip_eq_self h.nesting,
    ofJson?_toJson h.fits]

lemma Travels.of_depth (h : Fits a) (hdepth : depth α ≤ Json.Reader.maxOpen) : Travels a :=
  ⟨h, Nat.le_trans (nesting_le_depth h) hdepth⟩

lemma decode_encode (h : Fits a) (hdepth : depth α ≤ Json.Reader.maxOpen) :
    Wire.decode (Wire.encode a) = .ok a :=
  (Travels.of_depth h hdepth).decode_encode

/-- A deeper one does not decode. -/
lemma decode_encode_of_lt_nesting (h : Fits a) (hdeep : Json.Reader.maxOpen < (toJson a).nesting) :
    (Wire.decode (Wire.encode a) : Except ClusterError α) =
      .error (.serialization "the text does not decode") := by
  rw [Wire.decode, decode?_encode (faithful h), refuses _ hdeep]

theorem decode_encode_iff (h : Fits a) :
    Wire.decode (Wire.encode a) = .ok a ↔ (toJson a).nesting ≤ Json.Reader.maxOpen := by
  refine ⟨fun hread => Nat.le_of_not_lt fun hdeep => ?_, fun hnesting =>
    Travels.decode_encode ⟨h, hnesting⟩⟩
  rw [decode_encode_of_lt_nesting h hdeep] at hread
  cases hread

lemma eq_of_decode_encode (h : Fits a) {b : α} (hread : Wire.decode (Wire.encode a) = .ok b) :
    b = a := by
  rcases Nat.lt_or_ge Json.Reader.maxOpen (toJson a).nesting with hdeep | hnesting
  · rw [decode_encode_of_lt_nesting h hdeep] at hread
    cases hread
  · rw [Travels.decode_encode ⟨h, hnesting⟩] at hread
    exact (Except.ok.inj hread).symm

end

/-! ### Plain values -/

instance : LawfulWire String where
  Fits _ := True
  depth := 0
  faithful _ := .text _
  toJson_ne_null := nofun
  ofJson?_toJson _ := rfl
  ofInner?_toJson _ := rfl
  refuses := Json.refuses_of_flat rfl

instance : LawfulWire Bool where
  Fits _ := True
  depth := 0
  faithful _ := .bool _
  toJson_ne_null := nofun
  ofJson?_toJson _ := rfl
  ofInner?_toJson _ := rfl
  refuses := Json.refuses_of_flat rfl

lemma asInt_int {n : Int} (h : -(word63 : Int) ≤ n ∧ n < word63) : Json.asInt (.int n) = some n :=
  if_pos h

lemma faithful_int {n : Int} (h : -(word63 : Int) ≤ n ∧ n < word63) :
    Json.Faithful 0 (.int n) := by
  refine .int h.1 ?_
  simp only [word63, word64] at h ⊢
  omega

instance : LawfulWire Int where
  Fits n := -(word63 : Int) ≤ n ∧ n < word63
  depth := 0
  faithful := faithful_int
  toJson_ne_null := nofun
  ofJson?_toJson := asInt_int
  ofInner?_toJson := asInt_int
  refuses := Json.refuses_of_flat rfl

lemma asNat_int {n bound : Nat} (h : n < bound) : Json.asNat bound (.int n) = some n := by
  simp [Json.asNat, h]

lemma faithful_word {n bound room : Nat} (h : n < bound) (hbound : bound ≤ word64) :
    Json.Faithful room (.int n) :=
  .int (by simp only [word63]; omega) (by omega)

lemma faithful_byte {room : Nat} (b : UInt8) : Json.Faithful room (.int b.toNat) :=
  faithful_word b.toNat_lt (by decide)

instance : LawfulWire Nat where
  Fits n := n < word64
  depth := 0
  faithful h := faithful_word h le_rfl
  toJson_ne_null := nofun
  ofJson?_toJson := asNat_int
  ofInner?_toJson := asNat_int
  refuses := Json.refuses_of_flat rfl

/-! ### Lists, sets and maps -/

section

variable [Wire α] [LawfulWire α] [Wire β] [LawfulWire β]

instance : LawfulWire (List α) where
  Fits l := ∀ a ∈ l, Fits a
  depth := depth α + 1
  faithful {l} h := .array fun j hj => by
    obtain ⟨a, ha, rfl⟩ := List.mem_map.mp hj
    exact faithful (h a ha)
  toJson_ne_null := nofun
  ofJson?_toJson h := Json.mapM_read fun a ha => ofJson?_toJson (h a ha)
  ofInner?_toJson h := Json.mapM_read fun a ha => ofInner?_toJson (h a ha)
  refuses := .asList (List.forall_mem_map.mpr fun _ _ => refuses)

/-- A list travels if each of its items does in a list of its own. -/
lemma travels_list {l : List α} (h : ∀ a ∈ l, Travels [a]) : Travels l where
  fits a ha := (h a ha).fits a (List.mem_singleton_self a)
  nesting := by
    have hitems : Json.nestingItems (l.map toJson) ≤ Json.Reader.maxOpen - 1 := by
      refine Json.nestingItems_le_iff.mpr (List.forall_mem_map.mpr fun a ha => ?_)
      have hone := (h a ha).nesting
      change max (toJson a).nesting 0 + 1 ≤ _ at hone
      omega
    have hroom : 0 < Json.Reader.maxOpen := by decide
    change Json.nestingItems (l.map toJson) + 1 ≤ _
    omega

end

section

variable [Key α] [Wire α] [LawfulWire α] [Wire β] [LawfulWire β]

lemma ofJson?_toJson_set {s : SortedSet α} (h : ∀ a ∈ s, Fits a) :
    ofJson? (toJson s) = some s := by
  have hlist : ofJson? (toJson s.toList) = some s.toList := ofJson?_toJson (α := List α) h
  change (ofJson? (toJson s.toList)).map SortedSet.ofList = _
  rw [hlist, Option.map_some, SortedSet.ofList_toList]

instance : LawfulWire (SortedSet α) where
  Fits s := ∀ a ∈ s, Fits a
  depth := depth α + 1
  faithful {s} h := faithful (α := List α) (a := s.toList) h
  toJson_ne_null := nofun
  ofJson?_toJson := ofJson?_toJson_set
  ofInner?_toJson := ofJson?_toJson_set
  refuses {s} := .map (refuses (α := List α) (a := s.toList))

def FitsEntries (m : SortedMap α β) : Prop := ∀ a b, m.get? a = some b → Fits a ∧ Fits b

lemma fitsEntries_iff {m : SortedMap α β} :
    FitsEntries m ↔ ∀ e ∈ m.entries, Fits e.1 ∧ Fits e.2 :=
  ⟨fun h e he => h e.1 e.2 (SortedMap.mem_entries_iff.mp he),
    fun h a b hget => h (a, b) (SortedMap.mem_entries_iff.mpr hget)⟩

lemma faithful_pairs {m : SortedMap α β} (h : FitsEntries m) :
    Json.Faithful (max (depth α) (depth β) + 2) (Wire.pairs m) := by
  refine .array fun j hj => ?_
  obtain ⟨⟨a, b⟩, hmem, rfl⟩ := List.mem_map.mp hj
  obtain ⟨ha, hb⟩ := fitsEntries_iff.mp h _ hmem
  refine .array fun j hj => ?_
  rcases List.mem_pair.mp hj with rfl | rfl
  · exact faithful_mono ha (by omega)
  · exact faithful_mono hb (by omega)

lemma ofPairs?_pairs {m : SortedMap α β} (h : FitsEntries m) :
    Wire.ofPairs? (Wire.pairs m) = some m := by
  have hlist : (m.entries.map fun e => Json.array [toJson e.1, toJson e.2]).mapM
      (Json.asPair (ofJson? : Json → Option α) (ofJson? : Json → Option β)) = some m.entries := by
    refine Json.mapM_read fun ⟨a, b⟩ hmem => ?_
    obtain ⟨ha, hb⟩ := fitsEntries_iff.mp h _ hmem
    simp [Json.asPair, ofJson?_toJson ha, ofJson?_toJson hb]
  change ((m.entries.map fun e => Json.array [toJson e.1, toJson e.2]).mapM
      (Json.asPair ofJson? ofJson?)).map SortedMap.ofList = some m
  rw [hlist, Option.map_some, SortedMap.ofList_entries]

lemma refuses_pairs {m : SortedMap α β} :
    Json.Refuses (Wire.ofPairs? : Json → Option (SortedMap α β)) (Wire.pairs m) :=
  .map (.asList (List.forall_mem_map.mpr fun _ _ => .asPair refuses refuses))

end

section

variable [Wire β] [LawfulWire β]

lemma ofJson?_toJson_named {m : SortedMap String β} (h : FitsEntries m) :
    ofJson? (toJson m) = some m := by
  have hlist : (m.entries.map fun e => (e.1, toJson e.2)).mapM
      (fun e => (ofJson? e.2).map (e.1, ·)) = some m.entries := by
    refine Json.mapM_read fun ⟨a, b⟩ hmem => ?_
    obtain ⟨-, hb⟩ := fitsEntries_iff.mp h _ hmem
    simp [ofJson?_toJson hb]
  change ((m.entries.map fun e => (e.1, toJson e.2)).mapM
      (fun e => (ofJson? e.2).map (e.1, ·))).map SortedMap.ofList = some m
  rw [hlist, Option.map_some, SortedMap.ofList_entries]

instance : LawfulWire (SortedMap String β) where
  Fits := FitsEntries
  depth := depth β + 1
  faithful h := .object fun j hj => by
    obtain ⟨⟨a, b⟩, hmem, rfl⟩ := List.mem_map.mp hj
    exact faithful (fitsEntries_iff.mp h _ hmem).2
  toJson_ne_null := nofun
  ofJson?_toJson := ofJson?_toJson_named
  ofInner?_toJson := ofJson?_toJson_named
  refuses := .map (.asMembers (List.forall_mem_map.mpr fun _ _ => refuses))

end

end LawfulWire

end DeltaRing
