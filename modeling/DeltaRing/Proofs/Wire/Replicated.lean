import DeltaRing.Proofs.Replication.Family
import DeltaRing.Proofs.Wire.Lawful

/-!
What replicas send each other reads back.

The deltas, timestamps, operations and outputs of sets, registries and maps are lawful on the wire
if their items, keys and values are; so are the deltas and timestamps of every family, and the
operations and outputs of every type that has a code.
-/

namespace DeltaRing

namespace Json

lemma record_object {fields : List (String × Json)} {names : List String}
    (hnames : fields.map Prod.fst = names) (h : names.Nodup) :
    (Json.object fields).record names = some (fields.map fun m => .given m.2) := by
  subst hnames
  have hnamed : ∀ m ∈ fields, Slot.named fields m.1 = some (.given m.2) := by
    intro m hm
    have hfilter : fields.filter (fun m' => m'.1 = m.1) = [m] := by
      induction fields with
      | nil => simp at hm
      | cons m' fields ih =>
        obtain ⟨hnot, hnodup⟩ := List.nodup_cons.mp h
        rcases List.mem_cons.mp hm with rfl | hm
        · have hrest : fields.filter (fun m' => m'.1 = m.1) = [] := by
            refine List.filter_eq_nil_iff.mpr fun m' hm' heq => hnot ?_
            exact List.mem_map.mpr ⟨m', hm', by simpa using heq⟩
          simp [hrest]
        · have hne : m'.1 ≠ m.1 := fun heq => hnot (heq ▸ List.mem_map_of_mem hm)
          simp [hne, ih hnodup hm]
    rw [Slot.named, hfilter]
  rw [record]
  have hall : ∀ l : List (String × Json), (∀ m ∈ l, m ∈ fields) →
      (l.map Prod.fst).mapM (Slot.named fields) = some (l.map fun m => .given m.2) := by
    intro l hl
    induction l with
    | nil => rfl
    | cons m l ih =>
      simp [List.mapM_cons, hnamed m (hl m (by simp)), ih fun m' hm' => hl m' (by simp [hm'])]
  exact hall fields fun _ hm => hm

lemma tagged_object {tag name : String} {fields : List (String × Json)}
    {variant : Json → Option String} (hvariant : variant (.text name) = some name)
    (htag : ∀ m ∈ fields, m.1 ≠ tag) (hlegible : ∀ m ∈ fields, m.2.legible = true) :
    (Json.object ((tag, .text name) :: fields)).tagged tag variant =
      some (name, .object fields) := by
  have hsame : fields.filter (fun m => m.1 = tag) = [] :=
    List.filter_eq_nil_iff.mpr fun m hm => by simpa using htag m hm
  have hother : fields.filter (fun m => m.1 ≠ tag) = fields :=
    List.filter_eq_self.mpr fun m hm => by simpa using htag m hm
  rw [tagged]
  simp only [decide_true, List.filter_cons_of_pos, hsame, ne_eq, not_true_eq_false, decide_false,
    Bool.false_eq_true, not_false_eq_true, List.filter_cons_of_neg]
  simp only [ne_eq] at hother
  rw [hother, if_pos (legibleMembers_iff.mpr hlegible), hvariant]
  rfl

namespace Refuses

variable {α : Type} {fields : List (String × Json)}

lemma record {names : List String} {read : List Slot → Option α}
    (hnames : fields.map Prod.fst = names) (hnodup : names.Nodup)
    (h : ∀ room, (∃ m ∈ fields, room < m.2.nesting) →
      read (fields.map fun m => .given (m.2.clip room)) = none) :
    Refuses (fun j => j.record names >>= read) (.object fields) := by
  intro room hroom
  cases room with
  | zero => rfl
  | succ room =>
    have hclipped : (fields.map fun m => (m.1, m.2.clip room)).map Prod.fst = names := by
      rw [← hnames, List.map_map]
      rfl
    have hread := h room (lt_nestingMembers_iff.mp (Nat.lt_of_succ_lt_succ hroom))
    simp only [clip_object_succ, record_object hclipped hnodup, List.map_map]
    exact hread

/-- Where there is no room for a flat record, there is none at all. -/
lemma record_flat {names : List String} {read : List Slot → Option α}
    (h : nestingMembers fields = 0) :
    Refuses (fun j => j.record names >>= read) (.object fields) := by
  intro room hroom
  obtain rfl : room = 0 := by
    rw [nesting, h] at hroom
    omega
  rfl

/-- A tagged union is read as a whole or not at all. -/
lemma tagged {tag name : String} {variant : Json → Option String} {read : String × Json → Option α}
    (htag : ∀ m ∈ fields, m.1 ≠ tag) :
    Refuses (fun j => j.tagged tag variant >>= read) (.object ((tag, .text name) :: fields)) := by
  intro room hroom
  cases room with
  | zero => rfl
  | succ room =>
    have hmembers := Nat.lt_of_succ_lt_succ hroom
    have hdeep : room < nestingMembers fields := by
      change room < max 0 (nestingMembers fields) at hmembers
      rwa [Nat.zero_max] at hmembers
    have hillegible := legibleMembers_clip hdeep
    have htag' : ∀ m ∈ clipMembers room fields, m.1 ≠ tag := by
      rw [clipMembers_eq_map]
      exact List.forall_mem_map.mpr htag
    have hfilter : (clipMembers room fields).filter (fun m => m.1 ≠ tag) =
        clipMembers room fields :=
      List.filter_eq_self.mpr fun m hm => by simpa using htag' m hm
    have hother : (clipMembers room fields).filter (fun m => m.1 = tag) = [] :=
      List.filter_eq_nil_iff.mpr fun m hm => by simpa using htag' m hm
    have htagged : ((object ((tag, .text name) :: fields)).clip (room + 1)).tagged tag variant =
        none := by
      rw [clip_object_succ, List.map_cons, ← clipMembers_eq_map, Json.tagged]
      simp only [decide_true, List.filter_cons_of_pos, hother, ne_eq, not_true_eq_false,
        decide_false, Bool.false_eq_true, not_false_eq_true, List.filter_cons_of_neg]
      simp only [ne_eq] at hfilter
      rw [hfilter, hillegible, if_neg Bool.false_ne_true]
    simp only [htagged, Option.bind_eq_bind, Option.bind_none]

/-- A value that may be absent is not taken for absent. -/
lemma optional [Wire α] {v : Option α} (h : ∀ a ∈ v, Refuses (ofJson? : Json → Option α) (toJson a)) :
    ∀ room, room < (toJson v).nesting →
      (Slot.given ((toJson v).clip room)).optional (ofJson? : Json → Option α) = none := by
  intro room hroom
  cases v with
  | none => cases hroom
  | some a =>
    have hread : ofJson? ((toJson a).clip room) = none := h a rfl room hroom
    have hnull : (toJson a).clip room ≠ .null := by
      intro heq
      have hillegible : ((toJson a).clip room).legible = false := legible_clip hroom
      rw [heq] at hillegible
      cases hillegible
    change (Slot.given ((toJson a).clip room)).optional ofJson? = none
    rw [Slot.optional]
    · rw [hread]
      rfl
    · exact hnull

end Refuses

end Json

namespace LawfulWire

/-! ### Dots and contexts -/

lemma dot_of_record {j actor counter : Json} {d : Dot}
    (h : j.record ["actor", "counter"] = some [.given actor, .given counter])
    (hactor : ofJson? actor = some d.actor) (hcounter : ofJson? counter = some d.counter) :
    ofJson? j = some d := by
  change (j.record ["actor", "counter"] >>= _) = _
  simp [h, Json.Slot.required, hactor, hcounter]

lemma ofJson?_toJson_dot {d : Dot} (h : d.counter < word64) : ofJson? (toJson d) = some d :=
  dot_of_record (Json.record_object rfl (by decide)) (ofJson?_toJson trivial)
    (ofJson?_toJson (α := Nat) h)

instance : LawfulWire Dot where
  Fits d := d.counter < word64
  depth := 1
  faithful {d} h := by
    refine .object fun m hm => ?_
    rcases List.mem_pair.mp hm with rfl | rfl
    · exact .text _
    · exact faithful (α := Nat) h
  toJson_ne_null := nofun
  ofJson?_toJson := ofJson?_toJson_dot
  ofInner?_toJson := ofJson?_toJson_dot
  refuses := .record_flat rfl

lemma context_of_record {j frontier cloud : Json} {c : CausalContext}
    (h : j.record ["frontier", "cloud"] = some [.given frontier, .given cloud])
    (hfrontier : ofJson? frontier = some c.frontier) (hcloud : ofJson? cloud = some c.cloud) :
    ofJson? j = some c := by
  change (j.record ["frontier", "cloud"] >>= _) = _
  simp [h, Json.Slot.required, hfrontier, hcloud]

lemma ofJson?_toJson_context {c : CausalContext} (h : Fits c.frontier ∧ Fits c.cloud) :
    ofJson? (toJson c) = some c :=
  context_of_record (Json.record_object rfl (by decide)) (ofJson?_toJson h.1) (ofJson?_toJson h.2)

instance : LawfulWire CausalContext where
  Fits c := Fits c.frontier ∧ Fits c.cloud
  depth := 3
  faithful {c} h := by
    refine .object fun m hm => ?_
    rcases List.mem_pair.mp hm with rfl | rfl
    · exact faithful_mono h.1 (by decide)
    · exact faithful h.2
  toJson_ne_null := nofun
  ofJson?_toJson := ofJson?_toJson_context
  ofInner?_toJson := ofJson?_toJson_context
  refuses {c} := .record rfl (by decide) fun room h => by
    have hdeep : room < (toJson c.frontier).nesting ∨ room < (toJson c.cloud).nesting := by
      simpa using h
    rcases hdeep with hdeep | hdeep <;> simp [Json.Slot.required, refuses room hdeep]

lemma fits_context_iff {c : CausalContext} : Fits c ↔
    (∀ e ∈ c.frontier.entries, e.2 < word64) ∧ ∀ d ∈ c.cloud.toList, d.counter < word64 :=
  and_congr (fitsEntries_iff.trans (by simp [Fits])) Iff.rfl

/-! ### Stamps -/

lemma stamp_of_record {j time actor : Json} {s : LwwStamp}
    (h : j.record ["time", "actor"] = some [.given time, .given actor])
    (htime : ofJson? time = some s.time) (hactor : ofJson? actor = some s.actor) :
    ofJson? j = some s := by
  change (j.record ["time", "actor"] >>= _) = _
  simp [h, Json.Slot.required, htime, hactor]

lemma ofJson?_toJson_stamp {s : LwwStamp} (h : s.time < word64) : ofJson? (toJson s) = some s :=
  stamp_of_record (Json.record_object rfl (by decide)) (ofJson?_toJson (α := Nat) h)
    (ofJson?_toJson trivial)

instance : LawfulWire LwwStamp where
  Fits s := s.time < word64
  depth := 1
  faithful {s} h := by
    refine .object fun m hm => ?_
    rcases List.mem_pair.mp hm with rfl | rfl
    · exact faithful (α := Nat) h
    · exact .text _
  toJson_ne_null := nofun
  ofJson?_toJson := ofJson?_toJson_stamp
  ofInner?_toJson := ofJson?_toJson_stamp
  refuses := .record_flat rfl

/-! ### Tagged unions

The tag of a union that stands inside another is read by `asVariant`, else by `asText`. -/

section

variable {K V D T O R α : Type} {variant : Json → Option String} {j rest : Json}

lemma asText_text (name : String) : Json.asText (.text name) = some name := rfl

lemma asVariant_text (names : List String) (name : String) :
    Json.asVariant names (.text name) = some name := rfl

/-! ### Sets -/

section

variable [Wire α]

lemma setAdd_of_tagged {dot item : Json} {d : Dot} {a : α}
    (h : j.tagged "kind" variant = some ("add", rest))
    (hrest : rest.record ["dot", "item"] = some [.given dot, .given item])
    (hdot : ofInner? dot = some d) (hitem : ofInner? item = some a) :
    OrSetDelta.ofTagged? variant j = some (.add d a) := by
  simp [OrSetDelta.ofTagged?, h, hrest, Json.Slot.required, hdot, hitem]

lemma setRemove_of_tagged {dot tombstones : Json} {d : Dot} {ts : SortedSet Dot}
    (h : j.tagged "kind" variant = some ("remove", rest))
    (hrest : rest.record ["dot", "tombstones"] = some [.given dot, .given tombstones])
    (hdot : ofInner? dot = some d) (hts : ofInner? tombstones = some ts) :
    OrSetDelta.ofTagged? variant j = some (.remove d ts : OrSetDelta α) := by
  simp [OrSetDelta.ofTagged?, h, hrest, Json.Slot.required, hdot, hts]

lemma setOperation_of_tagged {item : Json} {a : α} {name : String} {op : α → OrSetOperation α}
    (hop : name = "add" ∧ op = .add ∨ name = "remove" ∧ op = .remove)
    (h : j.tagged "op" variant = some (name, rest))
    (hrest : rest.record ["item"] = some [.given item]) (hitem : ofInner? item = some a) :
    OrSetOperation.ofTagged? variant j = some (op a) := by
  rcases hop with ⟨rfl, rfl⟩ | ⟨rfl, rfl⟩ <;>
    simp [OrSetOperation.ofTagged?, h, hrest, Json.Slot.required, hitem]

variable [LawfulWire α]

def FitsSetDelta : OrSetDelta α → Prop
  | .add dot item => Fits dot ∧ Fits item
  | .remove dot tombstones => Fits dot ∧ Fits tombstones

lemma ofTagged?_setDelta (hv : ∀ name, variant (.text name) = some name) {δ : OrSetDelta α}
    (h : FitsSetDelta δ) : OrSetDelta.ofTagged? variant (toJson δ) = some δ := by
  cases δ with
  | add dot item =>
    exact setAdd_of_tagged
      (Json.tagged_object (hv _) (by simp) (by simpa using ⟨legible h.1, legible h.2⟩))
      (Json.record_object rfl (by decide)) (ofInner?_toJson h.1) (ofInner?_toJson h.2)
  | remove dot tombstones =>
    exact setRemove_of_tagged
      (Json.tagged_object (hv _) (by simp) (by simpa using ⟨legible h.1, legible h.2⟩))
      (Json.record_object rfl (by decide)) (ofInner?_toJson h.1) (ofInner?_toJson h.2)

instance : LawfulWire (OrSetDelta α) where
  Fits := FitsSetDelta
  depth := max 2 (depth α) + 1
  faithful {δ} h := by
    have hdot : ∀ d : Dot, Fits d → Json.Faithful (max 2 (depth α)) (toJson d) := fun d hd =>
      faithful_mono hd (Nat.le_trans (by decide : 1 ≤ 2) (Nat.le_max_left ..))
    cases δ with
    | add dot item =>
      exact .object (by simpa using
        ⟨Json.Faithful.text _, hdot _ h.1, faithful_mono h.2 (Nat.le_max_right ..)⟩)
    | remove dot tombstones =>
      exact .object (by simpa using
        ⟨Json.Faithful.text _, hdot _ h.1, faithful_mono h.2 (Nat.le_max_left ..)⟩)
  toJson_ne_null {δ} := by cases δ <;> nofun
  ofJson?_toJson := ofTagged?_setDelta asText_text
  ofInner?_toJson := ofTagged?_setDelta (asVariant_text _)
  refuses {δ} := by cases δ <;> exact .tagged (by simp)

lemma ofTagged?_setOperation (hv : ∀ name, variant (.text name) = some name)
    {op : OrSetOperation α} (h : Fits op.item) :
    OrSetOperation.ofTagged? variant (toJson op) = some op := by
  cases op with
  | add item =>
    have hitem := legible (a := item) h
    exact setOperation_of_tagged (.inl ⟨rfl, rfl⟩)
      (Json.tagged_object (hv _) (by simp) (by simpa using hitem))
      (Json.record_object rfl (by decide)) (ofInner?_toJson h)
  | remove item =>
    have hitem := legible (a := item) h
    exact setOperation_of_tagged (.inr ⟨rfl, rfl⟩)
      (Json.tagged_object (hv _) (by simp) (by simpa using hitem))
      (Json.record_object rfl (by decide)) (ofInner?_toJson h)

instance : LawfulWire (OrSetOperation α) where
  Fits op := Fits op.item
  depth := depth α + 1
  faithful {op} h := by
    cases op <;> exact .object (by simpa using ⟨Json.Faithful.text _, faithful h⟩)
  toJson_ne_null {op} := by cases op <;> nofun
  ofJson?_toJson := ofTagged?_setOperation asText_text
  ofInner?_toJson := ofTagged?_setOperation (asVariant_text _)
  refuses {op} := by cases op <;> exact .tagged (by simp)

end

/-! ### Registries -/

section

variable [Wire K] [Wire V]

lemma write_of_tagged {key value stamp : Json} {k : K} {v : V} {s : LwwStamp}
    (h : j.tagged "kind" variant = some ("set", rest))
    (hrest : rest.record ["key", "value", "stamp"] =
      some [.given key, .given value, .given stamp])
    (hkey : ofInner? key = some k) (hvalue : ofInner? value = some v)
    (hstamp : ofInner? stamp = some s) : LwwDelta.ofTagged? variant j = some (.set k v s) := by
  simp [LwwDelta.ofTagged?, h, hrest, Json.Slot.required, hkey, hvalue, hstamp]

lemma unwrite_of_tagged {key stamp : Json} {k : K} {s : LwwStamp}
    (h : j.tagged "kind" variant = some ("remove", rest))
    (hrest : rest.record ["key", "stamp"] = some [.given key, .given stamp])
    (hkey : ofInner? key = some k) (hstamp : ofInner? stamp = some s) :
    LwwDelta.ofTagged? variant j = some (.remove k s : LwwDelta K V) := by
  simp [LwwDelta.ofTagged?, h, hrest, Json.Slot.required, hkey, hstamp]

lemma setting_of_tagged {key value time : Json} {k : K} {v : V} {t : Nat}
    (h : j.tagged "op" variant = some ("set", rest))
    (hrest : rest.record ["key", "value", "time"] = some [.given key, .given value, .given time])
    (hkey : ofInner? key = some k) (hvalue : ofInner? value = some v)
    (htime : ofInner? time = some t) : LwwOperation.ofTagged? variant j = some (.set k v t) := by
  simp [LwwOperation.ofTagged?, h, hrest, Json.Slot.required, hkey, hvalue, htime]

lemma unsetting_of_tagged {key time : Json} {k : K} {t : Nat}
    (h : j.tagged "op" variant = some ("remove", rest))
    (hrest : rest.record ["key", "time"] = some [.given key, .given time])
    (hkey : ofInner? key = some k) (htime : ofInner? time = some t) :
    LwwOperation.ofTagged? variant j = some (.remove k t : LwwOperation K V) := by
  simp [LwwOperation.ofTagged?, h, hrest, Json.Slot.required, hkey, htime]

variable [LawfulWire K] [LawfulWire V]

def FitsWrite : LwwDelta K V → Prop
  | .set key value stamp => Fits key ∧ Fits value ∧ Fits stamp
  | .remove key stamp => Fits key ∧ Fits stamp

lemma ofTagged?_write (hv : ∀ name, variant (.text name) = some name) {δ : LwwDelta K V}
    (h : FitsWrite δ) : LwwDelta.ofTagged? variant (toJson δ) = some δ := by
  cases δ with
  | set key value stamp =>
    exact write_of_tagged
      (Json.tagged_object (hv _) (by simp)
        (by simpa using ⟨legible h.1, legible h.2.1, legible h.2.2⟩))
      (Json.record_object rfl (by decide)) (ofInner?_toJson h.1) (ofInner?_toJson h.2.1)
      (ofInner?_toJson h.2.2)
  | remove key stamp =>
    exact unwrite_of_tagged
      (Json.tagged_object (hv _) (by simp) (by simpa using ⟨legible h.1, legible h.2⟩))
      (Json.record_object rfl (by decide)) (ofInner?_toJson h.1) (ofInner?_toJson h.2)

instance : LawfulWire (LwwDelta K V) where
  Fits := FitsWrite
  depth := max 1 (max (depth K) (depth V)) + 1
  faithful {δ} h := by
    have hkey : ∀ k : K, Fits k →
        Json.Faithful (max 1 (max (depth K) (depth V))) (toJson k) := fun k hk =>
      faithful_mono hk (Nat.le_trans (Nat.le_max_left ..) (Nat.le_max_right ..))
    cases δ with
    | set key value stamp =>
      exact .object (by simpa using ⟨Json.Faithful.text _, hkey _ h.1,
        faithful_mono h.2.1 (Nat.le_trans (Nat.le_max_right ..) (Nat.le_max_right ..)),
        faithful_mono h.2.2 (Nat.le_max_left ..)⟩)
    | remove key stamp =>
      exact .object (by simpa using
        ⟨Json.Faithful.text _, hkey _ h.1, faithful_mono h.2 (Nat.le_max_left ..)⟩)
  toJson_ne_null {δ} := by cases δ <;> nofun
  ofJson?_toJson := ofTagged?_write asText_text
  ofInner?_toJson := ofTagged?_write (asVariant_text _)
  refuses {δ} := by cases δ <;> exact .tagged (by simp)

def FitsLwwOperation : LwwOperation K V → Prop
  | .set key value time => Fits key ∧ Fits value ∧ Fits time
  | .remove key time => Fits key ∧ Fits time

lemma ofTagged?_lwwOperation (hv : ∀ name, variant (.text name) = some name)
    {op : LwwOperation K V} (h : FitsLwwOperation op) :
    LwwOperation.ofTagged? variant (toJson op) = some op := by
  cases op with
  | set key value time =>
    exact setting_of_tagged
      (Json.tagged_object (hv _) (by simp)
        (by simpa using ⟨legible h.1, legible h.2.1, legible h.2.2⟩))
      (Json.record_object rfl (by decide)) (ofInner?_toJson h.1) (ofInner?_toJson h.2.1)
      (ofInner?_toJson h.2.2)
  | remove key time =>
    exact unsetting_of_tagged
      (Json.tagged_object (hv _) (by simp) (by simpa using ⟨legible h.1, legible h.2⟩))
      (Json.record_object rfl (by decide)) (ofInner?_toJson h.1) (ofInner?_toJson h.2)

instance : LawfulWire (LwwOperation K V) where
  Fits := FitsLwwOperation
  depth := max (depth K) (depth V) + 1
  faithful {op} h := by
    have hkey : ∀ k : K, Fits k → Json.Faithful (max (depth K) (depth V)) (toJson k) :=
      fun k hk => faithful_mono hk (Nat.le_max_left ..)
    have htime : ∀ t : Nat, Fits t → Json.Faithful (max (depth K) (depth V)) (toJson t) :=
      fun t ht => faithful_mono ht (Nat.zero_le _)
    cases op with
    | set key value time =>
      exact .object (by simpa using ⟨Json.Faithful.text _, hkey _ h.1,
        faithful_mono h.2.1 (Nat.le_max_right ..), htime _ h.2.2⟩)
    | remove key time =>
      exact .object (by simpa using ⟨Json.Faithful.text _, hkey _ h.1, htime _ h.2⟩)
  toJson_ne_null {op} := by cases op <;> nofun
  ofJson?_toJson := ofTagged?_lwwOperation asText_text
  ofInner?_toJson := ofTagged?_lwwOperation (asVariant_text _)
  refuses {op} := by cases op <;> exact .tagged (by simp)

end

/-! ### Maps -/

section

variable [Wire K] [Wire D]

lemma mapAdd_of_tagged {key dot : Json} {k : K} {d : Dot}
    (h : j.tagged "kind" variant = some ("add", rest))
    (hrest : rest.record ["key", "dot"] = some [.given key, .given dot])
    (hkey : ofInner? key = some k) (hdot : ofInner? dot = some d) :
    OrMapDelta.ofTagged? variant j = some (.add k d : OrMapDelta K D) := by
  simp [OrMapDelta.ofTagged?, h, hrest, Json.Slot.required, hkey, hdot]

lemma mapValue_of_tagged {key delta : Json} {k : K} {δ : D}
    (h : j.tagged "kind" variant = some ("value", rest))
    (hrest : rest.record ["key", "delta"] = some [.given key, .given delta])
    (hkey : ofInner? key = some k) (hdelta : ofInner? delta = some δ) :
    OrMapDelta.ofTagged? variant j = some (.value k δ) := by
  simp [OrMapDelta.ofTagged?, h, hrest, Json.Slot.required, hkey, hdelta]

lemma mapRemove_of_tagged {key dot tombstones : Json} {k : K} {d : Dot} {ts : SortedSet Dot}
    (h : j.tagged "kind" variant = some ("remove", rest))
    (hrest : rest.record ["key", "dot", "tombstones"] =
      some [.given key, .given dot, .given tombstones])
    (hkey : ofInner? key = some k) (hdot : ofInner? dot = some d)
    (hts : ofInner? tombstones = some ts) :
    OrMapDelta.ofTagged? variant j = some (.remove k d ts : OrMapDelta K D) := by
  simp [OrMapDelta.ofTagged?, h, hrest, Json.Slot.required, hkey, hdot, hts]

lemma mutation_of_tagged [Wire O] {key operation : Json} {k : K} {op : O}
    (h : j.tagged "kind" variant = some ("mutate", rest))
    (hrest : rest.record ["key", "op"] = some [.given key, .given operation])
    (hkey : ofInner? key = some k) (hop : ofInner? operation = some op) :
    OrMapOperation.ofTagged? variant j = some (.mutate k op) := by
  simp [OrMapOperation.ofTagged?, h, hrest, Json.Slot.required, hkey, hop]

lemma removal_of_tagged [Wire O] {key : Json} {k : K}
    (h : j.tagged "kind" variant = some ("remove", rest))
    (hrest : rest.record ["key"] = some [.given key]) (hkey : ofInner? key = some k) :
    OrMapOperation.ofTagged? variant j = some (.remove k : OrMapOperation K O) := by
  simp [OrMapOperation.ofTagged?, h, hrest, Json.Slot.required, hkey]

variable [LawfulWire K] [LawfulWire D]

def FitsMapDelta : OrMapDelta K D → Prop
  | .add key dot => Fits key ∧ Fits dot
  | .value key delta => Fits key ∧ Fits delta
  | .remove key dot tombstones => Fits key ∧ Fits dot ∧ Fits tombstones

lemma ofTagged?_mapDelta (hv : ∀ name, variant (.text name) = some name) {δ : OrMapDelta K D}
    (h : FitsMapDelta δ) : OrMapDelta.ofTagged? variant (toJson δ) = some δ := by
  cases δ with
  | add key dot =>
    exact mapAdd_of_tagged
      (Json.tagged_object (hv _) (by simp) (by simpa using ⟨legible h.1, legible h.2⟩))
      (Json.record_object rfl (by decide)) (ofInner?_toJson h.1) (ofInner?_toJson h.2)
  | value key delta =>
    exact mapValue_of_tagged
      (Json.tagged_object (hv _) (by simp) (by simpa using ⟨legible h.1, legible h.2⟩))
      (Json.record_object rfl (by decide)) (ofInner?_toJson h.1) (ofInner?_toJson h.2)
  | remove key dot tombstones =>
    exact mapRemove_of_tagged
      (Json.tagged_object (hv _) (by simp)
        (by simpa using ⟨legible h.1, legible h.2.1, legible h.2.2⟩))
      (Json.record_object rfl (by decide)) (ofInner?_toJson h.1) (ofInner?_toJson h.2.1)
      (ofInner?_toJson h.2.2)

instance : LawfulWire (OrMapDelta K D) where
  Fits := FitsMapDelta
  depth := max 2 (max (depth K) (depth D)) + 1
  faithful {δ} h := by
    have hkey : ∀ k : K, Fits k →
        Json.Faithful (max 2 (max (depth K) (depth D))) (toJson k) := fun k hk =>
      faithful_mono hk (Nat.le_trans (Nat.le_max_left ..) (Nat.le_max_right ..))
    have hdot : ∀ d : Dot, Fits d →
        Json.Faithful (max 2 (max (depth K) (depth D))) (toJson d) := fun d hd =>
      faithful_mono hd (Nat.le_trans (by decide : 1 ≤ 2) (Nat.le_max_left ..))
    cases δ with
    | add key dot =>
      exact .object (by simpa using ⟨Json.Faithful.text _, hkey _ h.1, hdot _ h.2⟩)
    | value key delta =>
      exact .object (by simpa using ⟨Json.Faithful.text _, hkey _ h.1,
        faithful_mono h.2 (Nat.le_trans (Nat.le_max_right ..) (Nat.le_max_right ..))⟩)
    | remove key dot tombstones =>
      exact .object (by simpa using ⟨Json.Faithful.text _, hkey _ h.1, hdot _ h.2.1,
        faithful_mono h.2.2 (Nat.le_max_left ..)⟩)
  toJson_ne_null {δ} := by cases δ <;> nofun
  ofJson?_toJson := ofTagged?_mapDelta asText_text
  ofInner?_toJson := ofTagged?_mapDelta (asVariant_text _)
  refuses {δ} := by cases δ <;> exact .tagged (by simp)

variable [Wire O] [LawfulWire O]

def FitsMapOperation : OrMapOperation K O → Prop
  | .mutate key op => Fits key ∧ Fits op
  | .remove key => Fits key

lemma ofTagged?_mapOperation (hv : ∀ name, variant (.text name) = some name)
    {op : OrMapOperation K O} (h : FitsMapOperation op) :
    OrMapOperation.ofTagged? variant (toJson op) = some op := by
  cases op with
  | mutate key op =>
    exact mutation_of_tagged
      (Json.tagged_object (hv _) (by simp) (by simpa using ⟨legible h.1, legible h.2⟩))
      (Json.record_object rfl (by decide)) (ofInner?_toJson h.1) (ofInner?_toJson h.2)
  | remove key =>
    have hkey := legible (a := key) h
    exact removal_of_tagged (Json.tagged_object (hv _) (by simp) (by simpa using hkey))
      (Json.record_object rfl (by decide)) (ofInner?_toJson h)

instance : LawfulWire (OrMapOperation K O) where
  Fits := FitsMapOperation
  depth := max (depth K) (depth O) + 1
  faithful {op} h := by
    cases op with
    | mutate key op =>
      exact .object (by simpa using ⟨Json.Faithful.text _, faithful_mono h.1 (Nat.le_max_left ..),
        faithful_mono h.2 (Nat.le_max_right ..)⟩)
    | remove key =>
      have hkey := faithful_mono (a := key) h (Nat.le_max_left (depth K) (depth O))
      exact .object (by simpa using ⟨Json.Faithful.text _, hkey⟩)
  toJson_ne_null {op} := by cases op <;> nofun
  ofJson?_toJson := ofTagged?_mapOperation asText_text
  ofInner?_toJson := ofTagged?_mapOperation (asVariant_text _)
  refuses {op} := by cases op <;> exact .tagged (by simp)

end

end

/-! ### Timestamps -/

section

variable {K T : Type} [Key K] [Wire K] [Wire T]

lemma registryTimestamp_of_record {j stamps : Json} {t : LwwTimestamp K}
    (h : j.record ["stamps"] = some [.given stamps])
    (hstamps : Wire.ofPairs? stamps = some t.stamps) : ofJson? j = some t := by
  change (j.record ["stamps"] >>= _) = _
  simp [h, Json.Slot.required, hstamps]

lemma mapTimestamp_of_record {j keys values : Json} {t : MapTimestamp K T}
    (h : j.record ["keys", "values"] = some [.given keys, .given values])
    (hkeys : ofJson? keys = some t.keys) (hvalues : Wire.ofPairs? values = some t.values) :
    ofJson? j = some t := by
  change (j.record ["keys", "values"] >>= _) = _
  simp [h, Json.Slot.required, hkeys, hvalues]

variable [LawfulWire K] [LawfulWire T]

lemma ofJson?_registryTimestamp {t : LwwTimestamp K} (h : FitsEntries t.stamps) :
    ofJson? (toJson t) = some t :=
  registryTimestamp_of_record (Json.record_object rfl (by decide)) (ofPairs?_pairs h)

instance : LawfulWire (LwwTimestamp K) where
  Fits t := FitsEntries t.stamps
  depth := max (depth K) 1 + 3
  faithful {t} h := by
    have hstamps : Json.Faithful (max (depth K) 1 + 2) (Wire.pairs t.stamps) := faithful_pairs h
    exact .object (by simpa using hstamps)
  toJson_ne_null := nofun
  ofJson?_toJson := ofJson?_registryTimestamp
  ofInner?_toJson := ofJson?_registryTimestamp
  refuses := .record rfl (by decide) fun room h => by
    simp [Json.Slot.required, refuses_pairs room (by simpa using h)]

lemma ofJson?_mapTimestamp {t : MapTimestamp K T} (h : Fits t.keys ∧ FitsEntries t.values) :
    ofJson? (toJson t) = some t :=
  mapTimestamp_of_record (Json.record_object rfl (by decide)) (ofJson?_toJson h.1)
    (ofPairs?_pairs h.2)

instance : LawfulWire (MapTimestamp K T) where
  Fits t := Fits t.keys ∧ FitsEntries t.values
  depth := max 3 (max (depth K) (depth T) + 2) + 1
  faithful {t} h := .object (by simpa using ⟨faithful_mono h.1 (Nat.le_max_left ..),
    (faithful_pairs h.2).mono (Nat.le_max_right ..)⟩)
  toJson_ne_null := nofun
  ofJson?_toJson := ofJson?_mapTimestamp
  ofInner?_toJson := ofJson?_mapTimestamp
  refuses {t} := .record rfl (by decide) fun room h => by
    have hdeep : room < (toJson t.keys).nesting ∨ room < (Wire.pairs t.values).nesting := by
      simpa using h
    rcases hdeep with hdeep | hdeep
    · simp [Json.Slot.required, refuses room hdeep]
    · simp [Json.Slot.required, refuses_pairs room hdeep]

end

/-! ### Outputs -/

section

variable {V R : Type} [Wire V] [Wire R]

lemma conflict_of_record {j winner stamp : Json} {met : LwwConflict V}
    (h : j.record ["winner", "stamp"] = some [.given winner, .given stamp])
    (hwinner : (Json.Slot.given winner).optional ofJson? = some met.winner)
    (hstamp : ofJson? stamp = some met.stamp) : ofJson? j = some met := by
  change (j.record ["winner", "stamp"] >>= _) = _
  simp [h, Json.Slot.required, hwinner, hstamp]

lemma applied_of_tagged {variant : Json → Option String} {j : Json}
    (h : j.tagged "outcome" variant = some ("applied", .object [])) :
    LwwOutcome.ofTagged? variant j = some (.applied : LwwOutcome V) := by
  simp [LwwOutcome.ofTagged?, h, Json.noFields]

lemma met_of_tagged {variant : Json → Option String} {j rest : Json} {met : LwwConflict V}
    (h : j.tagged "outcome" variant = some ("conflict", rest)) (hmet : ofInner? rest = some met) :
    LwwOutcome.ofTagged? variant j = some (.conflict met) := by
  simp [LwwOutcome.ofTagged?, h, hmet]

variable [LawfulWire V] [LawfulWire R]

lemma optional_toJson {v : Option V} (h : ∀ a ∈ v, Fits a) :
    (Json.Slot.given (toJson v)).optional ofJson? = some v := by
  cases v with
  | none => rfl
  | some v =>
    have hv := ofJson?_toJson (h v rfl)
    change (Json.Slot.given (toJson v)).optional ofJson? = some (some v)
    have hnull : toJson v ≠ .null := toJson_ne_null
    rw [Json.Slot.optional]
    · rw [hv]
      rfl
    · exact fun heq => hnull heq

def FitsOutcome : LwwOutcome V → Prop
  | .applied => True
  | .conflict met => (∀ v ∈ met.winner, Fits v) ∧ Fits met.stamp

lemma ofTagged?_outcome {variant : Json → Option String}
    (hv : ∀ name, variant (.text name) = some name) {o : LwwOutcome V} (h : FitsOutcome o) :
    LwwOutcome.ofTagged? variant (toJson o) = some o := by
  cases o with
  | applied => exact applied_of_tagged (Json.tagged_object (hv _) (by simp) (by simp))
  | conflict met =>
    have hwinner : (toJson met.winner).legible = true := by
      cases hw : met.winner with
      | none => rfl
      | some v => exact (legible (h.1 v hw) : (toJson v).legible = true)
    exact met_of_tagged
      (Json.tagged_object (hv _) (by simp) (by simpa using ⟨hwinner, legible h.2⟩))
      (conflict_of_record (Json.record_object rfl (by decide)) (optional_toJson h.1)
        (ofJson?_toJson h.2))

instance : LawfulWire (LwwOutcome V) where
  Fits := FitsOutcome
  depth := max 1 (depth V) + 1
  faithful {o} h := by
    cases o with
    | applied => exact .object (by simpa using Json.Faithful.text _)
    | conflict met =>
      have hwinner : Json.Faithful (max 1 (depth V)) (toJson met.winner) :=
        faithful_optional h.1 (Nat.le_max_right ..)
      exact .object (by simpa using
        ⟨Json.Faithful.text _, hwinner, faithful_mono h.2 (Nat.le_max_left ..)⟩)
  toJson_ne_null {o} := by cases o <;> nofun
  ofJson?_toJson := ofTagged?_outcome asText_text
  ofInner?_toJson := ofTagged?_outcome (asVariant_text _)
  refuses {o} := by cases o <;> exact .tagged (by simp)

def FitsMapOutput : OrMapOutput R → Prop
  | .mutated output => Fits output
  | .removed _ => True

lemma ofJson?_mapOutput {o : OrMapOutput R} (h : FitsMapOutput o) :
    ofJson? (toJson o) = some o := by
  cases o with
  | mutated output =>
    change (ofJson? (toJson output)).map OrMapOutput.mutated = _
    rw [ofJson?_toJson h]
    rfl
  | removed present => rfl

lemma refuses_mapOutput {o : OrMapOutput R} :
    Json.Refuses (ofJson? : Json → Option (OrMapOutput R)) (toJson o) := by
  intro room hroom
  cases room with
  | zero => cases o <;> rfl
  | succ room =>
    cases o with
    | mutated output =>
      have hdeep : room < (toJson output).nesting := by
        simpa [Json.nestingMembers] using Nat.lt_of_succ_lt_succ hroom
      change (ofJson? ((toJson output).clip room)).map OrMapOutput.mutated = none
      rw [refuses room hdeep, Option.map_none]
    | removed present => exact absurd (Nat.lt_of_succ_lt_succ hroom) (Nat.not_lt_zero _)

instance : LawfulWire (OrMapOutput R) where
  Fits := FitsMapOutput
  depth := depth R + 1
  faithful {o} h := by
    cases o with
    | mutated output =>
      have houtput := faithful (a := output) h
      exact .object (by simpa using houtput)
    | removed present =>
      exact .object (by simpa using faithful_mono (α := Bool) trivial (Nat.zero_le _))
  toJson_ne_null {o} := by cases o <;> nofun
  ofJson?_toJson := ofJson?_mapOutput
  ofInner?_toJson := ofJson?_mapOutput
  refuses := refuses_mapOutput

end

/-! ### Items, keys and values -/

lemma pair_of_asPair {j : Json} {p : BytePair}
    (h : j.asPair (Json.asNat word8) (Json.asNat word8) = some (p.first.toNat, p.second.toNat)) :
    ofJson? j = some p := by
  change (j.asPair (Json.asNat word8) (Json.asNat word8) >>= _) = _
  simp [h]

lemma ofJson?_toJson_pair {p : BytePair} (_ : True) : ofJson? (toJson p) = some p := by
  refine pair_of_asPair ?_
  change (do return (← Json.asNat word8 _, ← Json.asNat word8 _) : Option (Nat × Nat)) = _
  rw [asNat_int (show p.first.toNat < word8 from p.first.toNat_lt),
    asNat_int (show p.second.toNat < word8 from p.second.toNat_lt)]
  rfl

instance : LawfulWire BytePair where
  Fits _ := True
  depth := 1
  faithful _ := .array (by simpa using ⟨faithful_byte _, faithful_byte _⟩)
  toJson_ne_null := nofun
  ofJson?_toJson := ofJson?_toJson_pair
  ofInner?_toJson := ofJson?_toJson_pair
  refuses {_} room h := by
    obtain rfl : room = 0 := Nat.lt_one_iff.mp h
    rfl

instance scalarCarrier : (s : Scalar) → LawfulWire s.Carrier
  | .string => inferInstanceAs (LawfulWire String)
  | .int => inferInstanceAs (LawfulWire Int)
  | .pair => inferInstanceAs (LawfulWire BytePair)

end LawfulWire

namespace Family

/-! ### Families -/

variable {α K V : Type} [Key α] [Key K] [Wire α] [Wire K] [Wire V] {F : Family} [Wire F.Delta]
  [Wire F.Timestamp]

instance wireSetDelta : Wire (orSet α).Delta := inferInstanceAs (Wire (OrSetDelta α))

instance wireSetTimestamp : Wire (orSet α).Timestamp := inferInstanceAs (Wire CausalContext)

instance wireWrite : Wire (registry K V).Delta := inferInstanceAs (Wire (LwwDelta K V))

instance wireRegistryTimestamp : Wire (registry K V).Timestamp :=
  inferInstanceAs (Wire (LwwTimestamp K))

instance wireMapDelta : Wire (orMap K F).Delta := inferInstanceAs (Wire (OrMapDelta K F.Delta))

instance wireMapTimestamp : Wire (orMap K F).Timestamp :=
  inferInstanceAs (Wire (MapTimestamp K F.Timestamp))

variable [LawfulWire α] [LawfulWire K] [LawfulWire V] [LawfulWire F.Delta] [LawfulWire F.Timestamp]

instance : LawfulWire (orSet α).Delta := inferInstanceAs (LawfulWire (OrSetDelta α))

instance : LawfulWire (orSet α).Timestamp := inferInstanceAs (LawfulWire CausalContext)

instance : LawfulWire (registry K V).Delta := inferInstanceAs (LawfulWire (LwwDelta K V))

instance : LawfulWire (registry K V).Timestamp := inferInstanceAs (LawfulWire (LwwTimestamp K))

instance : LawfulWire (orMap K F).Delta := inferInstanceAs (LawfulWire (OrMapDelta K F.Delta))

instance : LawfulWire (orMap K F).Timestamp :=
  inferInstanceAs (LawfulWire (MapTimestamp K F.Timestamp))

end Family

namespace CrdtType

/-! ### Types that have codes -/

instance lawfulOperation : (t : CrdtType) → LawfulWire t.Operation
  | orSet item => inferInstanceAs (LawfulWire (OrSetOperation item.Carrier))
  | registry key value => inferInstanceAs (LawfulWire (LwwOperation key.Carrier value.Carrier))
  | orMap key value =>
    have := value.lawfulOperation
    inferInstanceAs (LawfulWire (OrMapOperation key.Carrier value.Operation))

instance lawfulOutput : (t : CrdtType) → LawfulWire t.Output
  | orSet _ => inferInstanceAs (LawfulWire Bool)
  | registry _ value => inferInstanceAs (LawfulWire (LwwOutcome value.Carrier))
  | orMap _ value =>
    have := value.lawfulOutput
    inferInstanceAs (LawfulWire (OrMapOutput value.Output))

end CrdtType

end DeltaRing
