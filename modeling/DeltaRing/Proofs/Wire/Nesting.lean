import DeltaRing.Proofs.Wire.Timestamps

/-!
How deep what replicas send is nested.

Every map in a type puts a level around the deltas, operations and outputs of its values, and three
around their timestamps. So the maps of a type bound how deep its documents are; and an operation on
the value that maps in one another keep under a key leaves a timestamp, and hands out deltas and an
output, that are as deep as there are maps.
-/

namespace DeltaRing

open CausalContext LawfulWire

def CrdtType.maps : CrdtType → Nat
  | orMap _ value => value.maps + 1
  | _ => 0

/-! ### At most -/

lemma depth_scalar (s : Scalar) : depth s.Carrier ≤ 1 := by
  cases s <;> decide

lemma depth_delta (t : CrdtType) : depth t.Delta ≤ t.maps + 3 := by
  induction t with
  | orSet item =>
    have hitem := depth_scalar item
    change max 2 (depth item.Carrier) + 1 ≤ 0 + 3
    omega
  | registry key value =>
    have hkey := depth_scalar key
    have hvalue := depth_scalar value
    change max 1 (max (depth key.Carrier) (depth value.Carrier)) + 1 ≤ 0 + 3
    omega
  | orMap key value ih =>
    have hkey := depth_scalar key
    change max 2 (max (depth key.Carrier) (depth value.Delta)) + 1 ≤ value.maps + 1 + 3
    omega

lemma depth_operation (t : CrdtType) : depth t.Operation ≤ t.maps + 2 := by
  induction t with
  | orSet item =>
    have hitem := depth_scalar item
    change depth item.Carrier + 1 ≤ 0 + 2
    omega
  | registry key value =>
    have hkey := depth_scalar key
    have hvalue := depth_scalar value
    change max (depth key.Carrier) (depth value.Carrier) + 1 ≤ 0 + 2
    omega
  | orMap key value ih =>
    have hkey := depth_scalar key
    change max (depth key.Carrier) (depth value.Operation) + 1 ≤ value.maps + 1 + 2
    omega

lemma depth_output (t : CrdtType) : depth t.Output ≤ t.maps + 2 := by
  induction t with
  | orSet _ => exact Nat.zero_le _
  | registry _ value =>
    have hvalue := depth_scalar value
    change max 1 (depth value.Carrier) + 1 ≤ 0 + 2
    omega
  | orMap _ value ih => exact Nat.succ_le_succ ih

/-- A map adds three levels to a timestamp: its own object, a list of pairs, and a pair. -/
lemma depth_timestamp (t : CrdtType) : depth t.Timestamp ≤ 3 * t.maps + 4 := by
  induction t with
  | orSet _ => exact Nat.le_succ 3
  | registry key _ =>
    have hkey := depth_scalar key
    change max (depth key.Carrier) 1 + 3 ≤ 3 * 0 + 4
    omega
  | orMap key value ih =>
    have hkey := depth_scalar key
    change max 3 (max (depth key.Carrier) (depth value.Timestamp) + 2) + 1 ≤
      3 * (value.maps + 1) + 4
    omega

/-! ### At least -/

namespace CrdtType

variable {t : CrdtType}

def inMaps (t : CrdtType) : Nat → CrdtType
  | 0 => t
  | n + 1 => .orMap .string (t.inMaps n)

/-- The operation on the value that the maps keep under the empty key. -/
def within (op : t.Operation) : (n : Nat) → (t.inMaps n).Operation
  | 0 => op
  | n + 1 => (.mutate "" (within op n) : OrMapOperation String (t.inMaps n).Operation)

/-- What it hands out if the delta is handed out for that value. -/
def deltaWithin (δ : t.Delta) : (n : Nat) → (t.inMaps n).Delta
  | 0 => δ
  | n + 1 => (.value "" (deltaWithin δ n) : OrMapDelta String (t.inMaps n).Delta)

def innermost : (n : Nat) → (t.inMaps n).State → t.State
  | 0, s => s
  | n + 1, (m : OrMap String (t.inMaps n).State) => innermost n (m.entryAt "").value

variable (op : t.Operation) (δ : t.Delta) (a : Actor)

lemma nesting_within (n : Nat) : (toJson (within op n)).nesting = n + (toJson op).nesting := by
  induction n with
  | zero => exact (Nat.zero_add _).symm
  | succ n ih =>
    change max 0 (max 0 (max (toJson (within op n)).nesting 0)) + 1 = _
    omega

variable {op} in
lemma fits_within (h : Fits op) (n : Nat) : Fits (within op n) := by
  induction n with
  | zero => exact h
  | succ n ih => exact ⟨trivial, ih⟩

lemma nesting_deltaWithin (n : Nat) :
    (toJson (deltaWithin δ n)).nesting = n + (toJson δ).nesting := by
  induction n with
  | zero => exact (Nat.zero_add _).symm
  | succ n ih =>
    change max 0 (max 0 (max (toJson (deltaWithin δ n)).nesting 0)) + 1 = _
    omega

lemma innermost_apply (n : Nat) (s : (t.inMaps n).State) :
    innermost n (Operable.apply s a (within op n)).1 =
      (Operable.apply (innermost n s) a op).1 := by
  induction n with
  | zero => rfl
  | succ n ih =>
    exact (congrArg (fun e : OrMapEntry _ => innermost n e.value) OrMap.entryAt_insert_self).trans
      (ih _)

/-- A map passes on the output. -/
lemma nesting_output (n : Nat) (s : (t.inMaps n).State) :
    (toJson (Operable.apply s a (within op n)).2.1).nesting =
      n + (toJson (Operable.apply (innermost n s) a op).2.1).nesting := by
  induction n with
  | zero => exact (Nat.zero_add _).symm
  | succ n ih =>
    let m : OrMap String (t.inMaps n).State := s
    have hvalue := ih (m.entryAt "").value
    change max (toJson (Operable.apply (m.entryAt "").value a (within op n)).2.1).nesting 0 + 1 =
      n + 1 + (toJson (Operable.apply (innermost n (m.entryAt "").value) a op).2.1).nesting
    omega

lemma fits_output (n : Nat) (s : (t.inMaps n).State)
    (h : Fits (Operable.apply (innermost n s) a op).2.1) :
    Fits (Operable.apply s a (within op n)).2.1 := by
  induction n with
  | zero => exact h
  | succ n ih => exact ih _ h

lemma deltaWithin_mem (n : Nat) (s : (t.inMaps n).State) {δ : t.Delta}
    (h : δ ∈ (Operable.apply (innermost n s) a op).2.2) :
    deltaWithin δ n ∈ (Operable.apply s a (within op n)).2.2 := by
  induction n with
  | zero => exact h
  | succ n ih => exact List.mem_cons_of_mem _ (List.mem_map_of_mem (ih _ h))

/-- The timestamp of a value stands in a pair, in the list of pairs, in the timestamp of its map. -/
lemma nesting_timestamp_of_get? {n : Nat} {m : OrMap String (t.inMaps n).State} {k : String}
    {e : OrMapEntry (t.inMaps n).State} (he : m.entries.get? k = some e) :
    (toJson (timestamp e.value)).nesting + 3 ≤
      (toJson (timestamp (S := (t.inMaps (n + 1)).State) m)).nesting := by
  have hpair : (k, timestamp e.value) ∈ m.timestamp.values.entries :=
    SortedMap.mem_entries_iff.mpr (by rw [OrMap.get?_timestamp, he, Option.map_some])
  have hpairs := Json.nestingItems_le_iff.mp le_rfl _
    (List.mem_map_of_mem (f := fun e => Json.array [toJson e.1, toJson e.2]) hpair)
  change max 0 (max (toJson (timestamp e.value)).nesting 0) + 1 ≤ _ at hpairs
  change _ ≤ max _ (max (Json.nestingItems
    (m.timestamp.values.entries.map fun e => Json.array [toJson e.1, toJson e.2]) + 1) 0) + 1
  omega

/-- After the change, the timestamp is as deep as there are maps. -/
lemma le_nesting_timestamp (n : Nat) (s : (t.inMaps n).State) :
    3 * n + (toJson (timestamp (Operable.apply (innermost n s) a op).1)).nesting ≤
      (toJson (timestamp (Operable.apply s a (within op n)).1)).nesting := by
  induction n with
  | zero => exact (Nat.zero_add _).le
  | succ n ih =>
    let m : OrMap String (t.inMaps n).State := s
    have hinner := ih (m.entryAt "").value
    have houter := nesting_timestamp_of_get? (t := t)
      (m := (Operable.apply (S := (t.inMaps (n + 1)).State) m a (within op (n + 1))).1)
      (k := "") SortedMap.get?_insert_self
    change (toJson (timestamp (Operable.apply (m.entryAt "").value a (within op n)).1)).nesting + 3 ≤
      (toJson (timestamp (Operable.apply s a (within op (n + 1))).1)).nesting at houter
    change 3 * (n + 1) + (toJson (timestamp (Operable.apply (innermost n (m.entryAt "").value) a
      op).1)).nesting ≤ _
    omega

/-! ### In fresh maps -/

lemma innermost_initial (n : Nat) : innermost n (initial : (t.inMaps n).State) = initial := by
  induction n with
  | zero => rfl
  | succ n ih => exact ih

variable {a}

lemma fits_deltas_within (h : ∀ δ ∈ (Operable.apply (initial : t.State) a op).2.2, Fits δ)
    (n : Nat) :
    ∀ δ ∈ (Operable.apply (initial : (t.inMaps n).State) a (within op n)).2.2, Fits δ := by
  induction n with
  | zero => exact h
  | succ n ih =>
    have hone : 1 < word64 := by decide
    exact List.forall_mem_cons.mpr
      ⟨⟨trivial, hone⟩, List.forall_mem_map.mpr fun δ hδ => ⟨trivial, ih δ hδ⟩⟩

lemma fits_timestamp_within (h : Fits (timestamp (Operable.apply (initial : t.State) a op).1))
    (n : Nat) :
    Fits (timestamp (Operable.apply (initial : (t.inMaps n).State) a (within op n)).1) := by
  induction n with
  | zero => exact h
  | succ n ih =>
    have hone : 1 < word64 := by decide
    exact ⟨fits_insert fits_empty hone, OrMap.fits_values_insert (m := OrMap.empty)
      (fun _ _ hget => by cases hget) rfl trivial ih⟩

/-! ### An item in a set in maps -/

def addition : (orSet .string).Operation := OrSetOperation.add "x"

/-- A set in so many maps, to which an actor has added the item. -/
def addedWithin (a : Actor) (n : Nat) : ((orSet .string).inMaps n).State :=
  (Operable.apply initial a (within addition n)).1

lemma fits_timestamp_addedWithin (a : Actor) (n : Nat) : Fits (timestamp (addedWithin a n)) := by
  have hset : Fits (CausalContext.empty.insert ⟨a, 1⟩) :=
    fits_insert fits_empty (by decide : 1 < word64)
  exact fits_timestamp_within addition hset n

lemma le_nesting_timestamp_addedWithin (a : Actor) (n : Nat) :
    3 * n + 2 ≤ (toJson (timestamp (addedWithin a n))).nesting := by
  have hdeep := le_nesting_timestamp addition a n initial
  have hcontext (c : CausalContext) : 2 ≤ (toJson c).nesting :=
    Nat.succ_le_succ ((Nat.le_add_left 1 _).trans (Nat.le_max_left _ _))
  rw [innermost_initial] at hdeep
  exact (Nat.add_le_add_left (hcontext _) _).trans hdeep

/-- The item and the keys of the maps count. -/
lemma sizeEstimate_addedWithin (a : Actor) (n : Nat) : sizeEstimate (addedWithin a n) = n + 1 := by
  induction n with
  | zero => rfl
  | succ n ih =>
    change sizeEstimate (addedWithin a n) + 1 + 0 + 0 = n + 1 + 1
    omega

/-- From 42 maps on, the timestamp does not decode. -/
lemma decode_timestamp_addedWithin (a : Actor) {n : Nat} (hn : 42 ≤ n) :
    (Wire.decode (Wire.encode (timestamp (addedWithin a n))) :
        Except ClusterError ((orSet .string).inMaps n).Timestamp) =
      .error (.serialization "the text does not decode") := by
  refine decode_encode_of_lt_nesting (fits_timestamp_addedWithin a n) ?_
  have hdeep := le_nesting_timestamp_addedWithin a n
  rw [Json.Reader.maxOpen]
  omega

/-- From 125 maps on, what the addition hands out does not decode. -/
lemma decode_deltas_addedWithin (a : Actor) {n : Nat} (hn : 125 ≤ n) :
    (Wire.decode (Wire.encode
        (Operable.apply (initial : ((orSet .string).inMaps n).State) a (within addition n)).2.2) :
          Except ClusterError (List ((orSet .string).inMaps n).Delta)) =
      .error (.serialization "the text does not decode") := by
  have hone : 1 < word64 := by decide
  have hfits := fits_deltas_within addition (a := a)
    (List.forall_mem_singleton.mpr ⟨hone, trivial⟩) n
  refine decode_encode_of_lt_nesting (α := List ((orSet .string).inMaps n).Delta) hfits ?_
  let δ : (orSet .string).Delta := OrSetDelta.add ⟨a, 1⟩ "x"
  have hmem : deltaWithin δ n ∈
      (Operable.apply (initial : ((orSet .string).inMaps n).State) a (within addition n)).2.2 := by
    refine deltaWithin_mem addition a n initial ?_
    rw [innermost_initial]
    exact List.mem_singleton_self _
  have hdeep := Json.nestingItems_le_iff.mp le_rfl _ (List.mem_map_of_mem (f := toJson) hmem)
  rw [nesting_deltaWithin] at hdeep
  exact Nat.lt_of_lt_of_le (Nat.add_le_add_right hn 3) (Nat.succ_le_succ hdeep)

/-- Before it, nobody reflects all of that. -/
lemma exists_not_reflects_initial (a : Actor) (n : Nat) :
    ∃ δ ∈ (Operable.apply (initial : ((orSet .string).inMaps n).State) a (within addition n)).2.2,
      reflects (timestamp (initial : ((orSet .string).inMaps n).State)) δ = false := by
  cases n with
  | zero => exact ⟨_, List.mem_singleton_self _, rfl⟩
  | succ n => exact ⟨_, List.mem_cons_self, rfl⟩

/-! ### A late write to a register in maps -/

def write (value : String) (time : Nat) : (registry .string .string).Operation :=
  LwwOperation.set "k" value time

/-- A register in so many maps, written at time 2. -/
def writtenWithin (n : Nat) : ((registry .string .string).inMaps n).State :=
  (Operable.apply initial "c" (within (write "x" 2) n)).1

/-- From 126 maps on, what the conflict of an earlier write answers does not decode. -/
lemma decode_output_writtenWithin {n : Nat} (hn : 126 ≤ n) :
    (Wire.decode (Wire.encode
        (Operable.apply (writtenWithin n) "b" (within (write "y" 1) n)).2.1) :
          Except ClusterError ((registry .string .string).inMaps n).Output) =
      .error (.serialization "the text does not decode") := by
  have hinner := innermost_apply (write "x" 2) "c" n initial
  rw [innermost_initial] at hinner
  have hmet : (Operable.apply (innermost n (writtenWithin n)) "b" (write "y" 1)).2.1 =
      (LwwOutcome.conflict ⟨some "x", ⟨2, "c"⟩⟩ : LwwOutcome String) := by
    rw [writtenWithin, hinner]
    rfl
  refine decode_encode_of_lt_nesting (fits_output _ _ n _ ?_) ?_
  · rw [hmet]
    exact ⟨fun _ _ => trivial, (by decide : 2 < word64)⟩
  · rw [nesting_output, hmet, Json.Reader.maxOpen]
    exact Nat.lt_of_lt_of_le (by decide) (Nat.add_le_add_right hn _)

/-- The write changes the map all the same, for it mints a dot. -/
lemma apply_writtenWithin_ne (n : Nat) :
    (Operable.apply (writtenWithin (n + 1)) "b" (within (write "y" 1) (n + 1))).1 ≠
      writtenWithin (n + 1) := by
  let before := CausalContext.empty.insert (CausalContext.empty.nextDot "c")
  have hminted : before.insert (before.nextDot "b") ≠ before := by decide +kernel
  exact fun heq => hminted (congrArg
    (OrMap.context (K := String) (V := ((registry .string .string).inMaps n).State)) heq)

end CrdtType

end DeltaRing
