import DeltaRing.Proofs.Node.Sizes
import DeltaRing.Proofs.Wire.Records

/-!
Local writes to the tables of the metadata.

A node writes a descriptor or a pass of sizes value by value, and the clock may show anything at
every one of them: stand still, go back, or be behind stamps that have come from elsewhere. Each
write takes a stamp beyond the one that it replaces, so the last value of every key stands in the
table. A peer that was not ahead under a key before gives way to every write of it, in the order in
which they are handed out, and ends with the same entry.
-/

namespace DeltaRing

namespace LwwRegistry

variable {K V : Type} [Key K] {r peer : LwwRegistry K V} {key key' : K} {value : V}
  {stamp : LwwStamp} {δ : LwwDelta K V}

/-- What the peer holds under a key has no greater stamp than what the registry holds there. -/
def NotAhead (peer r : LwwRegistry K V) (key : K) : Prop :=
  ∀ e, peer.entries.get? key = some e →
    ∃ e', r.entries.get? key = some e' ∧ e'.stamp.isBelow e.stamp = false

lemma notAhead_of_eq (h : peer.entries.get? key = r.entries.get? key) : peer.NotAhead r key :=
  fun e he => ⟨e, h ▸ he, LwwStamp.isBelow_self⟩

def put (r : LwwRegistry K V) (key : K) (value : V) (stamp : LwwStamp) : LwwRegistry K V :=
  ⟨r.entries.insert key ⟨some value, stamp⟩⟩

@[simp] lemma entry_put_self :
    (r.put key value stamp).entries.get? key = some ⟨some value, stamp⟩ :=
  SortedMap.get?_insert_self

lemma entry_put_of_ne (h : key' ≠ key) :
    (r.put key value stamp).entries.get? key' = r.entries.get? key' :=
  SortedMap.get?_insert_of_ne h

lemma entry_merge_of_ne (h : key ≠ δ.key) :
    (DeltaRing.merge r δ).1.entries.get? key = r.entries.get? key := by
  cases hb : reflects (timestamp r) δ with
  | true => exact congrArg (fun p => p.1.entries.get? key) (merge_of_blocking hb)
  | false =>
    refine (congrArg (fun p => p.1.entries.get? key) (merge_of_not_blocking hb)).trans ?_
    exact SortedMap.get?_insert_of_ne h

/-- After so many more writes all stamps still fit their words. -/
structure Room (r : LwwRegistry K V) (n : Nat) : Prop where
  clock : calendarEnd + n ≤ word64
  stamps : ∀ key e, r.entries.get? key = some e → e.stamp.time + n < word64

lemma Room.mono {n n' : Nat} (h : r.Room n') (hn : n ≤ n') : r.Room n where
  clock := (Nat.add_le_add_left hn _).trans h.clock
  stamps key e he := (Nat.add_le_add_left hn _).trans_lt (h.stamps key e he)

lemma Room.put {n : Nat} (h : r.Room n) (hstamp : stamp.time + n < word64) (key : K) (value : V) :
    (r.put key value stamp).Room n where
  clock := h.clock
  stamps key' e he := by
    by_cases hk : key' = key
    · subst hk
      rw [entry_put_self, Option.some.injEq] at he
      exact he ▸ hstamp
    · exact h.stamps key' e (entry_put_of_ne hk ▸ he)

end LwwRegistry

namespace Metadata

open LwwRegistry

variable {K V : Type} [Key K] {actor : Actor} {r r' peer : LwwRegistry K V} {key : K} {value : V}
  {writes : List (K × V)} {δs : List (LwwDelta K V)} {now n : Nat}

lemma time_nextStamp_add_lt (hroom : r.Room (n + 1)) (hnow : now < calendarEnd) (actor : Actor)
    (key : K) : (nextStamp actor now r key).time + n < word64 := by
  have hclock := hroom.clock
  rw [nextStamp, stamp?]
  cases he : r.entries.get? key with
  | none =>
    simp only [Option.map_none, nextTime]
    omega
  | some e =>
    have := hroom.stamps key e he
    simp only [Option.map_some, nextTime]
    split <;> omega

/-- A peer that is not ahead under a key takes the next write of it. -/
lemma merge_nextStamp (hpeer : peer.NotAhead r key) (actor : Actor) (now : Nat) (value : V) :
    (DeltaRing.merge peer (.set key value (nextStamp actor now r key))).1 =
      peer.put key value (nextStamp actor now r key) := by
  refine congrArg Prod.fst (merge_of_not_blocking ?_)
  refine Bool.not_eq_true _ ▸ fun hreflected => ?_
  obtain ⟨e, he, hle⟩ := reflects_timestamp_iff.mp hreflected
  obtain ⟨e', he', hnot⟩ := hpeer e he
  have hbelow : e'.stamp.isBelow (nextStamp actor now r key) = true :=
    LwwStamp.isBelow_of_time_lt (time_lt_nextStamp actor now he')
  exact Bool.noConfusion (hbelow.symm.trans (LwwStamp.not_isBelow_trans hnot hle))

/-! ### Writes in turn -/

/-- What comes of writing values in turn: the deltas handed out, and the registry in the end. -/
inductive Writes (actor : Actor) :
    LwwRegistry K V → List (K × V) → List (LwwDelta K V) → LwwRegistry K V → Prop
  | done {r : LwwRegistry K V} : Writes actor r [] [] r
  /-- The value stands there already. -/
  | kept {r r' : LwwRegistry K V} {key : K} {value : V} {writes : List (K × V)}
    {δs : List (LwwDelta K V)} :
    r.get? key = some value → Writes actor r writes δs r' →
    Writes actor r ((key, value) :: writes) δs r'
  /-- The clock has shown `now`. -/
  | written {r r' : LwwRegistry K V} {key : K} {value : V} {writes : List (K × V)}
    {δs : List (LwwDelta K V)} {now : Nat} :
    now < calendarEnd →
    Writes actor (r.put key value (nextStamp actor now r key)) writes δs r' →
    Writes actor r ((key, value) :: writes)
      (.set key value (nextStamp actor now r key) :: δs) r'

namespace Writes

lemma entry_of_not_named (h : Writes actor r writes δs r') (hkey : ∀ e ∈ writes, e.1 ≠ key) :
    r'.entries.get? key = r.entries.get? key := by
  induction h with
  | done => rfl
  | kept _ _ ih => exact ih (List.forall_mem_cons.mp hkey).2
  | written _ _ ih =>
    obtain ⟨hfirst, hkey⟩ := List.forall_mem_cons.mp hkey
    rw [ih hkey, entry_put_of_ne (Ne.symm hfirst)]

lemma entry_of_not_handedOut (h : Writes actor r writes δs r') (hkey : ∀ δ ∈ δs, δ.key ≠ key) :
    r'.entries.get? key = r.entries.get? key := by
  induction h with
  | done => rfl
  | kept _ _ ih => exact ih hkey
  | written _ _ ih =>
    obtain ⟨hfirst, hkey⟩ := List.forall_mem_cons.mp hkey
    exact (ih hkey).trans (entry_put_of_ne (Ne.symm hfirst))

lemma get?_of_last (before : List (K × V)) {after : List (K × V)}
    (h : Writes actor r (before ++ (key, value) :: after) δs r')
    (hlast : ∀ e ∈ after, e.1 ≠ key) : r'.get? key = some value := by
  induction before generalizing r δs with
  | nil =>
    cases h with
    | kept hsame hrest => rwa [LwwRegistry.get?, hrest.entry_of_not_named hlast]
    | written _ hrest =>
      rw [LwwRegistry.get?, hrest.entry_of_not_named hlast, entry_put_self]
      rfl
  | cons e before ih =>
    cases h with
    | kept _ hrest => exact ih hrest
    | written _ hrest => exact ih hrest

lemma time_le (h : Writes actor r writes δs r') {e : LwwEntry V}
    (he : r.entries.get? key = some e) :
    ∃ e', r'.entries.get? key = some e' ∧ e.stamp.time ≤ e'.stamp.time := by
  induction h generalizing e with
  | done => exact ⟨e, he, le_rfl⟩
  | kept _ _ ih => exact ih he
  | @written r r' key' value writes δs now _ _ ih =>
    by_cases hk : key = key'
    · subst hk
      obtain ⟨e', he', hle⟩ := ih entry_put_self
      exact ⟨e', he', (time_lt_nextStamp actor now he).le.trans hle⟩
    · exact ih ((entry_put_of_ne hk).trans he)

/-- What is handed out has changed the entry of its key. -/
lemma entry_ne_of_handedOut (h : Writes actor r writes δs r') {δ : LwwDelta K V} (hδ : δ ∈ δs) :
    r'.entries.get? δ.key ≠ r.entries.get? δ.key := by
  induction h with
  | done => cases hδ
  | kept _ _ ih => exact ih hδ
  | @written r r' key value writes δs now _ hrest ih =>
    have hgrown : r'.entries.get? key ≠ r.entries.get? key := by
      obtain ⟨e', he', hle⟩ := hrest.time_le entry_put_self
      intro hsame
      exact absurd (time_lt_nextStamp actor now (hsame ▸ he')) (not_lt_of_ge hle)
    rcases List.mem_cons.mp hδ with rfl | hδ
    · exact hgrown
    · by_cases hk : δ.key = key
      · exact hk ▸ hgrown
      · have hrest := ih hδ
        rwa [entry_put_of_ne hk] at hrest

/-- The keys that are handed out are those that have changed, and all of them were named. -/
lemma entry_ne_iff (h : Writes actor r writes δs r') :
    r'.entries.get? key ≠ r.entries.get? key ↔ ∃ δ ∈ δs, δ.key = key := by
  constructor
  · intro hne
    by_contra hnone
    exact hne (h.entry_of_not_handedOut fun δ hδ hk => hnone ⟨δ, hδ, hk⟩)
  · rintro ⟨δ, hδ, rfl⟩
    exact h.entry_ne_of_handedOut hδ

lemma eq_nil_iff (h : Writes actor r writes δs r') : δs = [] ↔ r' = r := by
  constructor
  · rintro rfl
    have hentries : r'.entries = r.entries := by
      ext k : 1
      exact h.entry_of_not_handedOut nofun
    exact congrArg LwwRegistry.mk hentries
  · rintro rfl
    exact List.eq_nil_iff_forall_not_mem.mpr fun δ hδ => h.entry_ne_of_handedOut hδ rfl

/-! ### Merging the writes elsewhere -/

lemma entry_mergeAll_of_eq (h : Writes actor r writes δs r')
    (heq : peer.entries.get? key = r.entries.get? key) :
    (mergeAll peer δs).1.entries.get? key = r'.entries.get? key := by
  induction h generalizing peer with
  | done => exact heq
  | kept _ _ ih => exact ih heq
  | @written r r' key' value writes δs now _ _ ih =>
    rw [mergeAll_cons]
    refine ih ?_
    by_cases hk : key = key'
    · subst hk
      rw [merge_nextStamp (notAhead_of_eq heq), entry_put_self, entry_put_self]
    · rw [entry_merge_of_ne hk, heq, entry_put_of_ne hk]

/-- A peer that was not ahead under a key has the same entry there once the writes of the key are
merged. -/
lemma entry_mergeAll (h : Writes actor r writes δs r') (hpeer : peer.NotAhead r key)
    (hwritten : ∃ δ ∈ δs, δ.key = key) :
    (mergeAll peer δs).1.entries.get? key = r'.entries.get? key := by
  obtain ⟨δ, hδ, rfl⟩ := hwritten
  induction h generalizing peer with
  | done => cases hδ
  | kept _ _ ih => exact ih hδ hpeer
  | @written r r' key' value writes δs now _ hrest ih =>
    rw [mergeAll_cons]
    by_cases hk : δ.key = key'
    · -- the key may be written once more
      refine hrest.entry_mergeAll_of_eq ?_
      rw [hk] at hpeer ⊢
      rw [merge_nextStamp hpeer, entry_put_self, entry_put_self]
    · have hrest : δ ∈ δs := (List.mem_cons.mp hδ).resolve_left fun heq => hk (heq ▸ rfl)
      refine ih hrest fun e he => ?_
      rw [entry_put_of_ne hk]
      exact hpeer e ((entry_merge_of_ne hk).symm.trans he)

lemma time_lt (h : Writes actor r writes δs r') (hroom : r.Room writes.length) :
    ∀ δ ∈ δs, δ.stamp.time < word64 := by
  induction h with
  | done => nofun
  | kept _ _ ih => exact ih (hroom.mono (Nat.le_succ _))
  | @written r r' key value writes δs now hnow _ ih =>
    have htime := time_nextStamp_add_lt hroom hnow actor key
    exact List.forall_mem_cons.mpr ⟨(Nat.le_add_right _ _).trans_lt htime,
      ih ((hroom.mono (Nat.le_succ _)).put htime key value)⟩

lemma fits [Wire K] [LawfulWire K] [Wire V] [LawfulWire V] (h : Writes actor r writes δs r')
    (htime : ∀ δ ∈ δs, δ.stamp.time < word64)
    (hfits : ∀ e ∈ writes, LawfulWire.Fits e.1 ∧ LawfulWire.Fits e.2) :
    ∀ δ ∈ δs, LawfulWire.Fits δ := by
  induction h with
  | done => nofun
  | kept _ _ ih => exact ih htime (List.forall_mem_cons.mp hfits).2
  | written _ _ ih =>
    obtain ⟨⟨hkey, hvalue⟩, hfits⟩ := List.forall_mem_cons.mp hfits
    obtain ⟨hfirst, htime⟩ := List.forall_mem_cons.mp htime
    exact List.forall_mem_cons.mpr ⟨⟨hkey, hvalue, hfirst⟩, ih htime hfits⟩

end Writes

/-! ### What comes of them -/

/-- Local writes take effect: what was named last for a key stands in the table, and nothing else
has changed. Deltas are handed out for the keys that have changed, if any have, with stamps that fit
their words. A peer that was not ahead under these keys and merges the encoded deltas has the same
entries there. -/
structure TakesEffect [Wire K] [LawfulWire K] [Wire V] [LawfulWire V] (r r' : LwwRegistry K V)
    (writes : List (K × V)) (δs? : Option (List (LwwDelta K V))) : Prop where
  last (before : List (K × V)) {after : List (K × V)} {key : K} {value : V} :
    writes = before ++ (key, value) :: after → (∀ e ∈ after, e.1 ≠ key) → (key, value) ∈ r'.items
  others {key : K} : (∀ e ∈ writes, e.1 ≠ key) → r'.entries.get? key = r.entries.get? key
  quiet : δs? = none ↔ r' = r
  handedOut {key : K} : r'.entries.get? key ≠ r.entries.get? key ↔
    ∃ δs ∈ δs?, ∃ δ ∈ δs, δ.key = key
  stamps {δs : List (LwwDelta K V)} : δs? = some δs → ∀ δ ∈ δs, δ.stamp.time < word64
  replicates {δs : List (LwwDelta K V)} {peer : LwwRegistry K V} : δs? = some δs →
    (∀ e ∈ writes, LawfulWire.Fits e.1 ∧ LawfulWire.Fits e.2) →
    (∀ δ ∈ δs, peer.NotAhead r δ.key) →
    ∃ peer' result, Encoded.merge peer (Wire.encode δs) = .ok (peer', result) ∧
      ∀ δ ∈ δs, peer'.entries.get? δ.key = r'.entries.get? δ.key

def handOut (δs : List (LwwDelta K V)) : Option (List (LwwDelta K V)) :=
  if δs.isEmpty then none else some δs

omit [Key K] in
lemma eq_of_handOut {δs δs' : List (LwwDelta K V)} (h : handOut δs = some δs') : δs = δs' := by
  rw [handOut] at h
  split at h
  · cases h
  · exact Option.some.inj h

lemma Writes.takesEffect [Wire K] [LawfulWire K] [Wire V] [LawfulWire V]
    (h : Writes actor r writes δs r') (hroom : r.Room writes.length)
    (hdepth : LawfulWire.depth (List (LwwDelta K V)) ≤ Json.Reader.maxOpen) :
    TakesEffect r r' writes (handOut δs) where
  last _ _ _ _ hwrites hlast := by
    subst hwrites
    exact mem_items.mpr (h.get?_of_last _ hlast)
  others := h.entry_of_not_named
  quiet := by
    rw [← h.eq_nil_iff, handOut]
    cases δs <;> simp
  handedOut {key} := by
    rw [h.entry_ne_iff, handOut]
    cases δs <;> simp
  stamps hsome := by
    obtain rfl := eq_of_handOut hsome
    exact h.time_lt hroom
  replicates {δs' peer} hsome hfits hpeer := by
    obtain rfl := eq_of_handOut hsome
    refine ⟨(mergeAll peer δs).1, (mergeAll peer δs).2, ?_, fun δ hδ => ?_⟩
    · rw [Encoded.merge, LawfulWire.decode_encode (h.fits (h.time_lt hroom) hfits) hdepth]
      rfl
    · exact h.entry_mergeAll (hpeer δ hδ) ⟨δ, hδ, rfl⟩

/-! ### What the tables make of it -/

/-- Writes one value after the other, each with what the clock shows at its turn; gives the deltas
of those that changed anything. -/
def replaceAll [DecidableEq V] (actor : Actor) : LwwRegistry K V → List (Int × K × V) →
    Except ClusterError (LwwRegistry K V × List (LwwDelta K V))
  | r, [] => .ok (r, [])
  | r, (clock, key, value) :: writes => do
    let (r, δ?) ← replaceEntry actor clock r key value
    let (r, δs) ← replaceAll actor r writes
    return (r, δ?.toList ++ δs)

lemma exists_writes [DecidableEq V] (actor : Actor) (r : LwwRegistry K V)
    {writes : List (Int × K × V)} (hclock : ∀ e ∈ writes, ∃ now, readClock e.1 = .ok now) :
    ∃ r' δs, replaceAll actor r writes = .ok (r', δs) ∧
      Writes actor r (writes.map Prod.snd) δs r' := by
  induction writes generalizing r with
  | nil => exact ⟨r, [], rfl, .done⟩
  | cons e writes ih =>
    obtain ⟨clock, key, value⟩ := e
    obtain ⟨⟨now, hnow⟩, hclock⟩ := List.forall_mem_cons.mp hclock
    obtain ⟨⟨r₁, δ?⟩, hreplace⟩ := exists_replaceEntry hnow actor r key value
    obtain ⟨r', δs, hrest, hwrites⟩ := ih r₁ hclock
    refine ⟨r', δ?.toList ++ δs, ?_, ?_⟩
    · rw [replaceAll, hreplace]
      change (replaceAll actor r₁ writes >>= _) = _
      rw [hrest]
      rfl
    · rcases replaceEntry_cases hreplace with ⟨hsame, rfl, rfl⟩ | ⟨now', hnow', rfl, rfl⟩
      · exact .kept hsame hwrites
      · exact .written (readClock_eq_ok_iff.mp hnow').2 hwrites

/-- Sizes recorded one after the other, each with what the clock shows at its turn; gives the deltas
of those that changed anything. -/
def recordSizesAt (m : Metadata) (reports : List (Int × ReplicaHolding × Nat)) :
    Except ClusterError (Metadata × Option (List (LwwDelta ReplicaHolding Nat))) := do
  let (sizes, δs) ← replaceAll m.actor m.sizes reports
  return ({ m with sizes }, handOut δs)

lemma recordSizes_eq_recordSizesAt (m : Metadata) (clock : Int)
    (reports : List (ReplicaHolding × Nat)) :
    m.recordSizes clock reports = m.recordSizesAt (reports.map (Prod.mk clock)) := by
  have hfold (l : List (ReplicaHolding × Nat)) (r : LwwRegistry ReplicaHolding Nat)
      (δs : List (LwwDelta ReplicaHolding Nat)) :
      l.foldlM (recordOne m.actor clock) (r, δs) =
        (replaceAll m.actor r (l.map (Prod.mk clock))).map fun p => (p.1, δs ++ p.2) := by
    induction l generalizing r δs with
    | nil => simp [replaceAll, Except.map, pure, Except.pure]
    | cons e l ih =>
      rw [List.foldlM_cons, recordOne, List.map_cons, replaceAll]
      cases replaceEntry m.actor clock r e.1 e.2 with
      | error err => rfl
      | ok q =>
        change l.foldlM (recordOne m.actor clock) (q.1, δs ++ q.2.toList) = _
        rw [ih]
        change _ = (replaceAll m.actor q.1 (l.map (Prod.mk clock)) >>= _).map _
        cases replaceAll m.actor q.1 (l.map (Prod.mk clock)) with
        | error err => rfl
        | ok p => simp [Except.map, bind, Except.bind, pure, Except.pure]
  rw [recordSizes_eq, hfold, recordSizesAt]
  cases replaceAll m.actor m.sizes (reports.map (Prod.mk clock)) <;> rfl

lemma registerInstance_eq_replaceAll (m : Metadata) (clock : Int) (d : InstanceDescriptor) :
    m.registerInstance clock d = (replaceAll m.actor m.instances [(clock, d.instanceId, d)]).map
      fun p => ({ m with instances := p.1 }, handOut p.2) := by
  change (replaceEntry m.actor clock m.instances d.instanceId d >>= _) =
    (replaceEntry m.actor clock m.instances d.instanceId d >>= _).map _
  cases replaceEntry m.actor clock m.instances d.instanceId d with
  | error e => rfl
  | ok q =>
    obtain ⟨r, _ | δ⟩ := q <;> rfl

/-- **Local writes take effect, and so they do at peers.** Whatever stamps stand in the tables and
whatever the clock shows, if only it can be read and all stamps have room to grow by one for every
write: a descriptor that is registered is the one on record, and of sizes that are recorded the last
one of every holding, also where the clock has moved between one report and the next. Nothing else
has changed, nothing is handed out if and only if nothing has changed at all, and what is handed out
brings the keys written to every peer that was not ahead there. -/
theorem local_writes_prevail (m : Metadata) :
    (∀ (clock : Int) (d : InstanceDescriptor), (∃ now, readClock clock = .ok now) →
      m.instances.Room 1 →
      ∃ m' δs?, m.registerInstance clock d = .ok (m', δs?) ∧
        m'.descriptor? d.instanceId = some d ∧ m' = { m with instances := m'.instances } ∧
        TakesEffect m.instances m'.instances [(d.instanceId, d)] δs?) ∧
    (∀ (clock : Int) (reports : List (ReplicaHolding × Nat)),
      m.recordSizes clock reports = m.recordSizesAt (reports.map (Prod.mk clock))) ∧
    ∀ reports : List (Int × ReplicaHolding × Nat),
      (∀ e ∈ reports, ∃ now, readClock e.1 = .ok now) → m.sizes.Room reports.length →
      ∃ m' δs?, m.recordSizesAt reports = .ok (m', δs?) ∧ m' = { m with sizes := m'.sizes } ∧
        TakesEffect m.sizes m'.sizes (reports.map Prod.snd) δs? := by
  refine ⟨fun clock d hclock hroom => ?_, m.recordSizes_eq_recordSizesAt,
    fun reports hclock hroom => ?_⟩
  · have hread : ∀ e ∈ [(clock, d.instanceId, d)], ∃ now, readClock e.1 = .ok now := by
      simpa using hclock
    obtain ⟨instances, δs, hreplace, hwrites⟩ := exists_writes m.actor m.instances hread
    refine ⟨{ m with instances }, handOut δs, ?_, ?_, rfl, hwrites.takesEffect hroom (by decide)⟩
    · rw [registerInstance_eq_replaceAll, hreplace]
      rfl
    · exact hwrites.get?_of_last [] nofun
  · obtain ⟨sizes, δs, hreplace, hwrites⟩ := exists_writes m.actor m.sizes hclock
    refine ⟨{ m with sizes }, handOut δs, ?_, rfl,
      hwrites.takesEffect (by rwa [List.length_map]) (by decide)⟩
    rw [recordSizesAt, hreplace]
    rfl

/-- A clock before 1970 cannot be read, so nothing is written then. And of two writes over the last
stamp but one of its word, the second has none left. -/
theorem without_clock_or_stamps :
    let d : InstanceDescriptor := ⟨"t", "orset<string>", 1, 1⟩
    let holding : ReplicaHolding := ⟨⟨"t", 0⟩, "a"⟩
    let late := { ofActor "a" with sizes := LwwRegistry.empty.put holding 7 ⟨word64 - 2, "z"⟩ }
    (ofActor "a").registerInstance (-1) d = .error .noDate ∧
      ∃ m' δs, late.recordSizes 0 [(holding, 1), (holding, 2)] = .ok (m', some δs) ∧
        ∃ δ ∈ δs, δ.stamp.time = word64 := by
  exact ⟨rfl, _, _, rfl, _, List.mem_cons_of_mem _ (List.mem_singleton_self _), rfl⟩

def aheadOfItsClock : Metadata :=
  { ofActor "a" with sizes := empty.put ⟨⟨"t", 0⟩, "a"⟩ 7 ⟨9000, "z"⟩ }

/-- Three reports, two of them of one holding, while the clock goes back. -/
def reportsBackInTime : List (Int × ReplicaHolding × Nat) :=
  [(5000, ⟨⟨"t", 0⟩, "a"⟩, 1), (3000, ⟨⟨"t", 1⟩, "a"⟩, 4), (0, ⟨⟨"t", 0⟩, "a"⟩, 2)]

/-- The last reports are on record, and a peer with an older size takes them over. -/
theorem recorded_behind_the_stamps :
    let peer : LwwRegistry ReplicaHolding Nat := empty.put ⟨⟨"t", 0⟩, "a"⟩ 6 ⟨8000, "y"⟩
    ∃ m' δs peer' result, aheadOfItsClock.recordSizesAt reportsBackInTime = .ok (m', some δs) ∧
      (⟨⟨"t", 0⟩, "a"⟩, 2) ∈ m'.sizes.items ∧ (⟨⟨"t", 1⟩, "a"⟩, 4) ∈ m'.sizes.items ∧
      Encoded.merge peer (Wire.encode δs) = .ok (peer', result) ∧
      ∀ δ ∈ δs, peer'.entries.get? δ.key = m'.sizes.entries.get? δ.key := by
  intro peer
  have hclock : ∀ e ∈ reportsBackInTime, ∃ now, readClock e.1 = .ok now := by
    simp only [reportsBackInTime, List.forall_mem_cons]
    exact ⟨⟨5000, rfl⟩, ⟨3000, rfl⟩, ⟨0, rfl⟩, nofun⟩
  have hroom : aheadOfItsClock.sizes.Room 3 := by
    have hempty : (empty : LwwRegistry ReplicaHolding Nat).Room 3 := ⟨by decide, nofun⟩
    exact hempty.put (by decide) _ _
  obtain ⟨m', δs?, hrecord, -, heffect⟩ :=
    (local_writes_prevail aheadOfItsClock).2.2 reportsBackInTime hclock hroom
  have hlast : (⟨⟨"t", 0⟩, "a"⟩, 2) ∈ m'.sizes.items :=
    heffect.last [(⟨⟨"t", 0⟩, "a"⟩, 1), (⟨⟨"t", 1⟩, "a"⟩, 4)] rfl nofun
  have hmiddle : (⟨⟨"t", 1⟩, "a"⟩, 4) ∈ m'.sizes.items :=
    heffect.last [(⟨⟨"t", 0⟩, "a"⟩, 1)] rfl (by decide)
  obtain ⟨δs, rfl⟩ : ∃ δs, δs? = some δs := by
    refine Option.ne_none_iff_exists'.mp fun hnone => ?_
    rw [heffect.quiet.mp hnone] at hlast
    exact absurd hlast (by decide +kernel)
  have hbehind (key : ReplicaHolding) : peer.NotAhead aheadOfItsClock.sizes key := by
    intro e he
    by_cases hk : key = ⟨⟨"t", 0⟩, "a"⟩
    · subst hk
      cases he
      exact ⟨_, rfl, by decide⟩
    · rw [entry_put_of_ne hk] at he
      cases he
  have hfits : ∀ e ∈ reportsBackInTime.map Prod.snd,
      LawfulWire.Fits e.1 ∧ LawfulWire.Fits e.2 := by
    have hsmall : ∀ e ∈ reportsBackInTime.map Prod.snd,
        e.1.replica.shard < word16 ∧ e.2 < word64 := by decide
    exact hsmall
  obtain ⟨peer', result, hmerge, hequal⟩ :=
    heffect.replicates rfl hfits fun δ _ => hbehind δ.key
  exact ⟨m', δs, peer', result, hrecord, hlast, hmiddle, hmerge, hequal⟩

end Metadata

end DeltaRing
