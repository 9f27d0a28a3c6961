import DeltaRing.Proofs.Replication.Family

/-!
What a replica lists.

The listing for a timestamp is the full listing without what the timestamp reflects. To observe a
listed delta is to reflect it and nothing else of the listing, so a cursor that has observed some of
the listed deltas leaves exactly the others. And what a replica lists for a peer does not depend on
what it has merged of the peer's deltas in the meantime: these laws are what makes it possible to
list and to merge at the same time.
-/

namespace DeltaRing

class Listing (S : Type) {D T : outParam Type} [CausalTimestamp T D] [DeltaCrdt S D T] [Authored D]
    [Summary S D] : Prop where
  timestamp_initial : timestamp (initial : S) = Lattice.bottom
  mem_deltasSince_some {s : S} {t : T} {δ : D} :
    δ ∈ deltasSince s (some t) ↔ δ ∈ deltasSince s none ∧ reflects t δ = false
  nodup_deltasSince (s : S) (since : Option T) : (deltasSince s since).Nodup
  reflects_observe_self (t : T) (δ : D) : reflects (observe t δ) δ = true
  reflects_observe_of_reflects {t : T} {δ ε : D} : reflects t ε = true →
    reflects (observe t δ) ε = true
  /-- Listed deltas do not stand for one another. -/
  reflects_observe_of_ne {E X : Set D} {s : S} {t : T} {δ ε : D} : Coherent E → X ⊆ E →
    Summarizes s X → δ ∈ deltasSince s none → ε ∈ deltasSince s none → δ ≠ ε →
    reflects (observe t δ) ε = reflects t ε
  /-- Deltas of a peer neither add to nor take from what is listed for the peer. -/
  mem_deltasSince_union_iff {E X Y Z : Set D} {s u v : S} {δ : D} : Coherent E → X ⊆ E → Y ⊆ E →
    Z ⊆ Y → Summarizes s X → Summarizes u Y → Summarizes v (X ∪ Z) →
    reflects (timestamp u) δ = false → (δ ∈ deltasSince v none ↔ δ ∈ deltasSince s none)
  /-- What is news to a replica changes it, and is observed. -/
  merge_of_not_reflects {E : Set D} {s : S} {δ : D} : Coherent E → δ ∈ E →
    reflects (timestamp s) δ = false → (merge s δ).2 = .updated ∧
      ∀ ε ∈ E, reflects (timestamp (merge s δ).1) ε = reflects (observe (timestamp s) δ) ε

/-! ### Sets -/

namespace OrSet

open OrSetDelta

variable {α : Type} [Key α] {E X Y Z : Set (OrSetDelta α)} {s u v : OrSet α} {c : CausalContext}
  {δ ε : OrSetDelta α}

lemma mem_deltasSince_none : δ ∈ s.deltasSince none ↔
    match δ with
    | .add d x => d ∈ s.dotsOf x
    | .remove r ts => s.removals.get? r = some ts := by
  cases δ <;> simp [mem_deltasSince]

lemma nodup_deltasSince (s : OrSet α) (since : Option CausalContext) :
    (s.deltasSince since).Nodup := by
  rw [deltasSince]
  refine List.nodup_append.mpr ⟨?_, ?_, ?_⟩
  · refine s.removals.nodup_entries.filterMap fun e e' b hb hb' => ?_
    simp only [Option.mem_def, Option.ite_none_right_eq_some, Option.some.injEq] at hb hb'
    have heq := hb.2.trans hb'.2.symm
    rw [OrSetDelta.remove.injEq] at heq
    exact Prod.ext heq.1 heq.2
  · refine SortedMap.nodup_flatMap_entries (fun e => ?_) fun e e' b hb hb' => ?_
    · exact (e.2.nodup_toList.filter _).map fun d d' h => (OrSetDelta.add.inj h).1
    · obtain ⟨d, -, rfl⟩ := List.mem_map.mp hb
      obtain ⟨d', -, heq⟩ := List.mem_map.mp hb'
      exact (OrSetDelta.add.inj heq).2.symm
  · rintro δ hδ ε hε rfl
    obtain ⟨e, -, he⟩ := List.mem_filterMap.mp hδ
    obtain ⟨e', -, he'⟩ := List.mem_flatMap.mp hε
    obtain ⟨d, -, rfl⟩ := List.mem_map.mp he'
    simp at he

lemma IsSummary.dot_notMem_dots (hE : Consistent E) (hX : X ⊆ E) (h : s.IsSummary X)
    (hδ : δ ∈ s.deltasSince none) (hε : ε ∈ s.deltasSince none) (hne : δ ≠ ε) : ε.dot ∉ δ.dots := by
  have hδX := h.mem_of_mem_deltasSince hδ
  have hεX := h.mem_of_mem_deltasSince hε
  intro hdot
  rcases mem_dots_iff.mp hdot with heq | hb
  · exact hne (hE.dot_inj δ (hX hδX) ε (hX hεX) heq.symm)
  · -- the other one would be a buried addition
    have hbX : Buried X ε.dot := hb.mono (Set.singleton_subset_iff.mpr hδX)
    obtain ⟨x, hx⟩ := hE.added ε.dot (hbX.mono hX)
    have heq := hE.dot_inj ε (hX hεX) _ hx rfl
    rw [heq, mem_deltasSince_none] at hε
    exact ((h.mem_dotsOf _ _).mp hε).2 hbX

/-- Neither the dot nor the burial of a delta that the peer does not reflect comes from the peer. -/
lemma IsSummary.mem_deltasSince_union_iff (hZ : Z ⊆ Y) (h : s.IsSummary X) (hu : u.IsSummary Y)
    (hv : v.IsSummary (X ∪ Z)) (hpos : 0 < δ.dot.counter)
    (hnew : u.context.contains δ.dot = false) :
    δ ∈ v.deltasSince none ↔ δ ∈ s.deltasSince none := by
  have hdot : δ.dot ∉ dotsIn Y := by
    rw [← Bool.not_eq_true, hu.contains_iff hpos] at hnew
    exact hnew
  have hnotZ : δ ∉ Z := fun hδ => hdot (dot_mem_dotsIn (hZ hδ))
  rw [mem_deltasSince_none, mem_deltasSince_none]
  cases δ with
  | add d x =>
    have hburied : Buried (X ∪ Z) d ↔ Buried X d := by
      refine ⟨?_, Buried.mono Set.subset_union_left⟩
      rintro ⟨r, ts, hr | hr, hd⟩
      · exact ⟨r, ts, hr, hd⟩
      · exact absurd (mem_dotsIn_iff.mpr (.inr ⟨r, ts, hZ hr, hd⟩)) hdot
    dsimp only
    rw [hv.mem_dotsOf, h.mem_dotsOf, hburied, Set.mem_union, or_iff_left hnotZ]
  | remove r ts =>
    dsimp only
    rw [hv.removals, h.removals, Set.mem_union, or_iff_left hnotZ]

instance : Listing (OrSet α) where
  timestamp_initial := rfl
  mem_deltasSince_some {s c δ} := by
    change δ ∈ s.deltasSince (some c) ↔ δ ∈ s.deltasSince none ∧ c.contains δ.dot = false
    rw [mem_deltasSince, mem_deltasSince, and_comm (b := c.contains δ.dot = false)]
    simp
  nodup_deltasSince := nodup_deltasSince
  reflects_observe_self c δ :=
    CausalContext.contains_insertAll.mpr (.inr (mem_dots_iff.mpr (.inl rfl)))
  reflects_observe_of_reflects h := CausalContext.contains_insertAll.mpr (.inl h)
  reflects_observe_of_ne hE hX h hδ hε hne := by
    rw [Bool.eq_iff_iff]
    exact CausalContext.contains_insertAll.trans
      (or_iff_left (IsSummary.dot_notMem_dots hE hX h hδ hε hne))
  mem_deltasSince_union_iff {E X Y Z s u v δ} hE hX hY hZ h hu hv hnew := by
    constructor
    · intro hδ
      have hmem := IsSummary.mem_of_mem_deltasSince hv hδ
      have hpos := hE.counter_pos δ (Set.union_subset hX (hZ.trans hY) hmem)
      exact (IsSummary.mem_deltasSince_union_iff hZ h hu hv hpos hnew).mp hδ
    · intro hδ
      have hpos := hE.counter_pos δ (hX (IsSummary.mem_of_mem_deltasSince h hδ))
      exact (IsSummary.mem_deltasSince_union_iff hZ h hu hv hpos hnew).mpr hδ
  merge_of_not_reflects {E s δ} _ _ hnew := by
    have hmerge : OrSet.merge s δ = ((OrSet.merge s δ).1, .updated) ∧
        (OrSet.merge s δ).1.context = s.context.insertAll δ.dots := by
      unfold OrSet.merge
      rw [if_neg (by simpa using hnew)]
      cases δ <;> exact ⟨rfl, rfl⟩
    exact ⟨congrArg Prod.snd hmerge.1, fun ε _ => congrArg (·.contains ε.dot) hmerge.2⟩

end OrSet

/-! ### Registries -/

namespace LwwRegistry

open LwwDelta

variable {K V : Type} [Key K] {E X Y Z : Set (LwwDelta K V)} {r u v : LwwRegistry K V}
  {t : LwwTimestamp K} {δ ε : LwwDelta K V}

lemma mem_deltasSince_none : δ ∈ r.deltasSince none ↔ r.entries.get? δ.key = some δ.entry := by
  rw [mem_deltasSince]
  constructor
  · rintro ⟨k, e, he, rfl, -⟩
    simpa using he
  · exact fun h => ⟨δ.key, δ.entry, h, ofEntry_entry.symm, by simp⟩

lemma nodup_deltasSince (r : LwwRegistry K V) (since : Option (LwwTimestamp K)) :
    (r.deltasSince since).Nodup := by
  refine r.entries.nodup_entries.filterMap fun e e' b hb hb' => ?_
  simp only [Option.mem_def, Option.ite_none_right_eq_some, Option.some.injEq] at hb hb'
  have heq := hb.2.trans hb'.2.symm
  exact Prod.ext (by simpa using congrArg key heq) (by simpa using congrArg entry heq)

/-- A registry lists the newest write of every key. -/
lemma IsSummary.mem_deltasSince_iff (hE : Consistent E) (hX : X ⊆ E) (h : r.IsSummary X) :
    δ ∈ r.deltasSince none ↔ δ ∈ X ∧ ∀ ε ∈ X, ε.key = δ.key → δ.stamp.isBelow ε.stamp = false := by
  rw [mem_deltasSince_none]
  constructor
  · intro he
    refine ⟨by simpa using h.mem _ _ he, fun ε hε hk => ?_⟩
    obtain ⟨e, he', hle⟩ := h.newest ε hε
    rw [hk, he, Option.some.injEq] at he'
    subst he'
    simpa using hle
  · rintro ⟨hδ, hmax⟩
    obtain ⟨e, he, hle⟩ := h.newest δ hδ
    have hmem := h.mem _ _ he
    have hstamp : δ.stamp = e.stamp :=
      LwwStamp.eq_of_not_isBelow (by simpa using hmax _ hmem (by simp)) hle
    have heq := hE δ (hX hδ) _ (hX hmem) (by simp) (by simpa using hstamp)
    rw [he, heq, entry_ofEntry]

/-- Every write of the peer to the key is older than one that the peer does not reflect. -/
lemma IsSummary.mem_deltasSince_union_iff (hE : Consistent E) (hX : X ⊆ E) (hY : Y ⊆ E)
    (hZ : Z ⊆ Y) (h : r.IsSummary X) (hu : u.IsSummary Y) (hv : v.IsSummary (X ∪ Z))
    (hnew : reflects (timestamp u) δ = false) :
    δ ∈ v.deltasSince none ↔ δ ∈ r.deltasSince none := by
  have holder : ∀ ε ∈ Z, ε.key = δ.key → δ.stamp.isBelow ε.stamp = false := by
    intro ε hε hk
    by_contra hbelow
    have hknown := reflects_timestamp_iff.mpr (hu.newest ε (hZ hε))
    rw [reflects_of_le hk (LwwStamp.isBelow_asymm (by simpa using hbelow)) hknown] at hnew
    cases hnew
  have hnotZ : δ ∉ Z := fun hδ => by
    rw [reflects_timestamp_iff.mpr (hu.newest δ (hZ hδ))] at hnew
    cases hnew
  rw [hv.mem_deltasSince_iff hE (Set.union_subset hX (hZ.trans hY)), h.mem_deltasSince_iff hE hX,
    Set.mem_union, or_iff_left hnotZ]
  refine and_congr_right fun _ => ⟨fun hmax ε hε => hmax ε (.inl hε), ?_⟩
  rintro hmax ε (hε | hε)
  · exact hmax ε hε
  · exact holder ε hε

lemma get?_observe : (observe t δ).stamps.get? δ.key =
    some (δ.stamp.newerOf (t.stamps.get? δ.key)) := SortedMap.get?_alter_self _

lemma reflects_observe_of_key_ne (hk : ε.key ≠ δ.key) :
    reflects (observe t δ) ε = reflects t ε := by
  have hget : (observe t δ).stamps.get? ε.key = t.stamps.get? ε.key :=
    SortedMap.get?_alter_of_ne hk _
  rw [Bool.eq_iff_iff, reflects_iff, reflects_iff, hget]

lemma timestamp_insert (hnew : reflects (timestamp r) δ = false) :
    timestamp (⟨r.entries.insert δ.key δ.entry⟩ : LwwRegistry K V) = observe (timestamp r) δ := by
  have hstamps : (timestamp (⟨r.entries.insert δ.key δ.entry⟩ : LwwRegistry K V)).stamps =
      (observe (timestamp r) δ).stamps := by
    ext k : 1
    rw [get?_timestamp]
    by_cases hk : k = δ.key
    · subst hk
      rw [get?_observe, SortedMap.get?_insert_self, get?_timestamp, Option.map_some, stamp_entry]
      cases he : r.entries.get? δ.key with
      | none => rfl
      | some e =>
        have hbelow : e.stamp.isBelow δ.stamp = true := by
          by_contra hnot
          rw [reflects_timestamp_iff.mpr ⟨e, he, by simpa using hnot⟩] at hnew
          cases hnew
        rw [Option.map_some, LwwStamp.newerOf, if_pos hbelow]
    · rw [SortedMap.get?_insert_of_ne hk, ← get?_timestamp]
      exact (SortedMap.get?_alter_of_ne hk _).symm
  cases h : timestamp (⟨r.entries.insert δ.key δ.entry⟩ : LwwRegistry K V)
  cases h' : observe (timestamp r) δ
  rw [h, h'] at hstamps
  simp only at hstamps
  rw [hstamps]

lemma newerOf_not_isBelow_self {b : LwwStamp} {a : Option LwwStamp} :
    (b.newerOf a).isBelow b = false := by
  cases a with
  | none => exact LwwStamp.isBelow_self
  | some a =>
    rw [LwwStamp.newerOf]
    split
    · exact LwwStamp.isBelow_self
    · rename_i hab
      simpa using hab

instance : Listing (LwwRegistry K V) where
  timestamp_initial := rfl
  mem_deltasSince_some {r t δ} := by
    change δ ∈ r.deltasSince (some t) ↔ δ ∈ r.deltasSince none ∧ _
    rw [mem_deltasSince, mem_deltasSince]
    constructor
    · rintro ⟨k, e, he, rfl, hnew⟩
      exact ⟨⟨k, e, he, rfl, by simp⟩, hnew t rfl⟩
    · rintro ⟨⟨k, e, he, rfl, -⟩, hnew⟩
      exact ⟨k, e, he, rfl, by simpa using hnew⟩
  nodup_deltasSince := nodup_deltasSince
  reflects_observe_self t δ := reflects_iff.mpr ⟨_, get?_observe, newerOf_not_isBelow_self⟩
  reflects_observe_of_reflects {t δ ε} h := by
    by_cases hk : ε.key = δ.key
    · obtain ⟨seen, hseen, hle⟩ := reflects_iff.mp h
      refine reflects_iff.mpr ⟨_, by rw [hk]; exact get?_observe, ?_⟩
      rw [← hk, hseen]
      exact LwwStamp.newerOf_not_isBelow hle
    · rwa [reflects_observe_of_key_ne hk]
  reflects_observe_of_ne {E X s t δ ε} _ _ _ hδ hε hne := by
    refine reflects_observe_of_key_ne fun hk => hne ?_
    replace hδ := mem_deltasSince_none.mp hδ
    replace hε := mem_deltasSince_none.mp hε
    rw [hk, hδ, Option.some.injEq] at hε
    rw [← ofEntry_entry (δ := δ), ← ofEntry_entry (δ := ε), hk, hε]
  mem_deltasSince_union_iff hE hX hY hZ h hu hv hnew :=
    IsSummary.mem_deltasSince_union_iff hE hX hY hZ h hu hv hnew
  merge_of_not_reflects {E r δ} _ _ hnew := by
    have hmerge : DeltaRing.merge r δ = (⟨r.entries.insert δ.key δ.entry⟩, .updated) :=
      merge_of_not_blocking hnew
    rw [hmerge]
    exact ⟨rfl, fun ε _ => congrArg (reflects · ε) (timestamp_insert hnew)⟩

end LwwRegistry

/-! ### Maps -/

namespace OrMap

open OrMapDelta

variable {K V D T : Type} [Key K] [DeltaCrdt V D T] {E X Y Z : Set (OrMapDelta K D)}
  {m u v : OrMap K V} {t : MapTimestamp K T} {δ ε : OrMapDelta K D} {k : K} {d : Dot}

lemma mem_deltasSince_none : δ ∈ m.deltasSince none ↔
    match δ with
    | .add k d => d ∈ (m.entryAt k).dots
    | .remove k r ts => m.removals.get? r = some (k, ts)
    | .value k δ => ∃ e, m.entries.get? k = some e ∧ δ ∈ DeltaRing.deltasSince e.value none := by
  cases δ <;> simp [mem_deltasSince]

lemma nodup_deltasSince (m : OrMap K V) (since : Option (MapTimestamp K T))
    (hvalues : ∀ (v : V) (since : Option T), (DeltaRing.deltasSince v since).Nodup) :
    (m.deltasSince since).Nodup := by
  rw [deltasSince]
  refine List.nodup_append.mpr ⟨List.nodup_append.mpr ⟨?_, ?_, ?_⟩, ?_, ?_⟩
  · refine m.removals.nodup_entries.filterMap fun e e' b hb hb' => ?_
    simp only [Option.mem_def, Option.ite_none_right_eq_some, Option.some.injEq] at hb hb'
    have heq := hb.2.trans hb'.2.symm
    rw [OrMapDelta.remove.injEq] at heq
    exact Prod.ext heq.2.1 (Prod.ext heq.1 heq.2.2)
  · refine SortedMap.nodup_flatMap_entries (fun e => ?_) fun e e' b hb hb' => ?_
    · exact (e.2.dots.nodup_toList.filter _).map fun d d' h => (OrMapDelta.add.inj h).2
    · obtain ⟨d, -, rfl⟩ := List.mem_map.mp hb
      obtain ⟨d', -, heq⟩ := List.mem_map.mp hb'
      exact (OrMapDelta.add.inj heq).1.symm
  · rintro δ hδ ε hε rfl
    obtain ⟨e, -, he⟩ := List.mem_filterMap.mp hδ
    obtain ⟨e', -, he'⟩ := List.mem_flatMap.mp hε
    obtain ⟨d, -, rfl⟩ := List.mem_map.mp he'
    simp at he
  · refine SortedMap.nodup_flatMap_entries (fun e => ?_) fun e e' b hb hb' => ?_
    · exact (hvalues _ _).map fun δ ε h => (OrMapDelta.value.inj h).2
    · obtain ⟨δ, -, rfl⟩ := List.mem_map.mp hb
      obtain ⟨ε, -, heq⟩ := List.mem_map.mp hb'
      exact (OrMapDelta.value.inj heq).1.symm
  · rintro δ hδ ε hε rfl
    obtain ⟨e', -, he'⟩ := List.mem_flatMap.mp hε
    obtain ⟨ε, -, rfl⟩ := List.mem_map.mp he'
    rcases List.mem_append.mp hδ with hδ | hδ
    · obtain ⟨e, -, he⟩ := List.mem_filterMap.mp hδ
      simp at he
    · obtain ⟨e, -, he⟩ := List.mem_flatMap.mp hδ
      obtain ⟨d, -, heq⟩ := List.mem_map.mp he
      cases heq

variable [CausalTimestamp T D]

lemma keys_observe : (observe t δ).keys = t.keys.insertAll δ.dots := by
  cases δ <;> rfl

lemma contains_observe : (observe t δ).keys.contains d = true ↔
    t.keys.contains d = true ∨ δ.dot? = some d ∨ Buried {δ} d := by
  rw [keys_observe, CausalContext.contains_insertAll, mem_dots_iff]

lemma get?_observe_value {δ : D} : (observe t (.value k δ : OrMapDelta K D)).values.get? k =
    some (observe ((t.values.get? k).getD Lattice.bottom) δ) := SortedMap.get?_alter_self _

lemma reflects_observe_value_of_ne {k' : K} {δ ε : D} (hk : k' ≠ k) :
    reflects (observe t (.value k δ : OrMapDelta K D)) (.value k' ε : OrMapDelta K D) =
      reflects t (.value k' ε : OrMapDelta K D) := by
  have hget : (observe t (.value k δ : OrMapDelta K D)).values.get? k' = t.values.get? k' :=
    SortedMap.get?_alter_of_ne hk _
  rw [Bool.eq_iff_iff, reflects_value, reflects_value, hget]

/-- The other deltas leave the timestamps of values as they are. -/
lemma reflects_observe_of_dot? {ε : D} (hd : δ.dot? = some d) :
    reflects (observe t δ) (.value k ε : OrMapDelta K D) =
      reflects t (.value k ε : OrMapDelta K D) := by
  cases δ with
  | add _ _ => rfl
  | remove _ _ _ => rfl
  | value _ _ => cases hd

lemma reflects_observe_self (hvalues : ∀ (t : T) (δ : D), reflects (observe t δ) δ = true)
    (t : MapTimestamp K T) (δ : OrMapDelta K D) : reflects (observe t δ) δ = true := by
  cases hd : δ.dot? with
  | some d =>
    rw [reflects_of_dot? hd, contains_observe]
    exact .inr (.inl hd)
  | none =>
    obtain ⟨k, δ, rfl⟩ := exists_eq_value hd
    exact reflects_value.mpr ⟨_, get?_observe_value, hvalues _ _⟩

lemma reflects_observe_of_reflects
    (hvalues : ∀ (t : T) (δ ε : D), reflects t ε = true → reflects (observe t δ) ε = true)
    (h : reflects t ε = true) : reflects (observe t δ) ε = true := by
  cases hd : ε.dot? with
  | some d =>
    rw [reflects_of_dot? hd] at h ⊢
    exact contains_observe.mpr (.inl h)
  | none =>
    obtain ⟨k, ε, rfl⟩ := exists_eq_value hd
    cases δ with
    | add k' d => rwa [reflects_observe_of_dot? (d := d) rfl]
    | remove k' r ts => rwa [reflects_observe_of_dot? (d := r) rfl]
    | value k' δ =>
      by_cases hk : k = k'
      · subst hk
        obtain ⟨tᵥ, ht, hr⟩ := reflects_value.mp h
        refine reflects_value.mpr ⟨_, get?_observe_value, ?_⟩
        rw [ht]
        exact hvalues _ _ _ hr
      · rwa [reflects_observe_value_of_ne hk]

variable [Authored D] [Summary V D] [laws : Convergent V]

/-- A key that is not tracked has nothing to list. -/
lemma value_mem_deltasSince_none {δ : D} :
    .value k δ ∈ m.deltasSince none ↔ δ ∈ DeltaRing.deltasSince (m.entryAt k).value none := by
  rw [mem_deltasSince_none]
  cases he : m.entries.get? k with
  | none =>
    rw [entryAt_of_get?_eq_none he]
    refine iff_of_false (by simp [he]) fun hδ => ?_
    exact Set.notMem_empty δ (Convergent.mem_of_mem_deltasSince Convergent.summarizes_initial hδ)
  | some e =>
    rw [entryAt_of_get? he]
    simp [he]

lemma IsSummary.not_named (hE : Consistent E) (hX : X ⊆ E) (h : m.IsSummary X)
    (hδ : δ ∈ m.deltasSince none) (hε : ε ∈ m.deltasSince none) (hne : δ ≠ ε)
    (hd : ε.dot? = some d) : ¬ (δ.dot? = some d ∨ Buried {δ} d) := by
  have hδX := h.mem_of_mem_deltasSince hδ
  have hεX := h.mem_of_mem_deltasSince hε
  rintro (hδd | hb)
  · exact hne (hE.dot_inj δ (hX hδX) ε (hX hεX) d hδd hd)
  · -- the other one would be a buried addition
    have hbX : Buried X d := hb.mono (Set.singleton_subset_iff.mpr hδX)
    obtain ⟨k, r, ts, hr, hdts⟩ := hbX
    have heq := hE.dot_inj ε (hX hεX) _ (hE.added k r ts (hX hr) d hdts) d hd rfl
    rw [heq, mem_deltasSince_none] at hε
    exact ((h.mem_dots _ _).mp hε).2 ⟨k, r, ts, hr, hdts⟩

/-- Whether a delta of a value is reflected can be told from the value alone. -/
lemma reflects_timestamp_value (hE : Consistent E) {δ : D} (hδ : .value k δ ∈ E) :
    reflects (DeltaRing.timestamp m) (.value k δ : OrMapDelta K D) =
      reflects (DeltaRing.timestamp (m.entryAt k).value) δ := by
  rw [Bool.eq_iff_iff]
  refine reflects_value_iff.trans ?_
  cases he : m.entries.get? k with
  | none =>
    rw [entryAt_of_get?_eq_none he, Convergent.not_reflects_initial (hE.values k) hδ]
    simp
  | some e =>
    rw [entryAt_of_get? he]
    simp

variable [listing : Listing V]

variable (V) in
include laws listing in
/-- So can it from what a timestamp knows of the value, which is nothing where it has no timestamp
for the key. -/
lemma reflects_value_getD (hE : Consistent E) {δ : D} (hδ : .value k δ ∈ E) :
    reflects t (.value k δ : OrMapDelta K D) =
      reflects ((t.values.get? k).getD Lattice.bottom) δ := by
  rw [Bool.eq_iff_iff, reflects_value]
  cases t.values.get? k with
  | none =>
    rw [Option.getD_none, ← Listing.timestamp_initial (S := V),
      Convergent.not_reflects_initial (hE.values k) hδ]
    simp
  | some tᵥ => simp

lemma IsSummary.mem_deltasSince_union_iff (hE : Consistent E) (hX : X ⊆ E) (hY : Y ⊆ E)
    (hZ : Z ⊆ Y) (h : m.IsSummary X) (hu : u.IsSummary Y) (hv : v.IsSummary (X ∪ Z)) (hδ : δ ∈ E)
    (hnew : reflects (DeltaRing.timestamp u) δ = false) :
    δ ∈ v.deltasSince none ↔ δ ∈ m.deltasSince none := by
  have hnotY : ∀ d, δ.dot? = some d → d ∉ dotsIn Y := by
    intro d hd
    rw [reflects_of_dot? hd, ← Bool.not_eq_true] at hnew
    exact fun hmem => hnew ((hu.contains_iff hE hδ hd).mpr hmem)
  have hnotZ : ∀ d, δ.dot? = some d → δ ∉ Z := fun d hd hmem =>
    hnotY d hd (mem_dotsIn_of_dot? (hZ hmem) hd)
  cases δ with
  | add k d =>
    have hburied : Buried (X ∪ Z) d ↔ Buried X d := by
      refine ⟨?_, Buried.mono Set.subset_union_left⟩
      rintro ⟨k', r, ts, hr | hr, hd⟩
      · exact ⟨k', r, ts, hr, hd⟩
      · exact absurd (.inr ⟨k', r, ts, hZ hr, hd⟩) (hnotY d rfl)
    rw [mem_deltasSince_none, mem_deltasSince_none]
    dsimp only
    rw [hv.mem_dots, h.mem_dots, hburied, Set.mem_union, or_iff_left (hnotZ d rfl)]
  | remove k r ts =>
    rw [mem_deltasSince_none, mem_deltasSince_none]
    dsimp only
    rw [hv.removals, h.removals, Set.mem_union, or_iff_left (hnotZ r rfl)]
  | value k δ =>
    rw [value_mem_deltasSince_none, value_mem_deltasSince_none]
    refine Listing.mem_deltasSince_union_iff (hE.values k) (valueDeltas_mono hX)
      (valueDeltas_mono hY) (valueDeltas_mono hZ) (h.value k) (hu.value k) (hv.value k) ?_
    rwa [reflects_timestamp_value hE hδ] at hnew

omit laws in
lemma mem_deltasSince_some :
    δ ∈ m.deltasSince (some t) ↔ δ ∈ m.deltasSince none ∧ reflects t δ = false := by
  rw [mem_deltasSince, mem_deltasSince]
  cases δ with
  | add k d =>
    change _ ↔ _ ∧ t.keys.contains d = false
    simp [and_comm]
  | remove k r ts =>
    change _ ↔ _ ∧ t.keys.contains r = false
    simp [and_comm]
  | value k δ =>
    change (∃ e, m.entries.get? k = some e ∧
      δ ∈ DeltaRing.deltasSince e.value (t.values.get? k)) ↔ _ ∧ (t.values.get? k).any _ = false
    cases t.values.get? k with
    | none => simp
    | some tᵥ => simp [Listing.mem_deltasSince_some, ← and_assoc]

omit laws in
/-- The timestamp of the value of a key, whether it is tracked or not. -/
lemma getD_timestamp : ((timestamp m).values.get? k).getD Lattice.bottom =
    DeltaRing.timestamp (m.entryAt k).value := by
  rw [get?_timestamp]
  cases he : m.entries.get? k with
  | none =>
    rw [entryAt_of_get?_eq_none he]
    exact Listing.timestamp_initial.symm
  | some e =>
    rw [entryAt_of_get? he]
    rfl

lemma reflects_observe_of_ne (hE : Consistent E) (hX : X ⊆ E) (h : m.IsSummary X)
    (hδ : δ ∈ m.deltasSince none) (hε : ε ∈ m.deltasSince none) (hne : δ ≠ ε) :
    reflects (observe t δ) ε = reflects t ε := by
  cases hd : ε.dot? with
  | some d =>
    rw [Bool.eq_iff_iff, reflects_of_dot? hd, reflects_of_dot? hd, contains_observe]
    exact or_iff_left (h.not_named hE hX hδ hε hne hd)
  | none =>
    obtain ⟨k, ε, rfl⟩ := exists_eq_value hd
    cases δ with
    | add k' d => exact reflects_observe_of_dot? (d := d) rfl
    | remove k' r ts => exact reflects_observe_of_dot? (d := r) rfl
    | value k' δ =>
      by_cases hk : k = k'
      · subst hk
        rw [value_mem_deltasSince_none] at hδ hε
        have hne' : δ ≠ ε := fun heq => hne (heq ▸ rfl)
        have hinner : ∀ t : T, reflects (observe t δ) ε = reflects t ε := fun t =>
          Listing.reflects_observe_of_ne (hE.values k) (valueDeltas_mono hX) (h.value k) hδ hε
            hne'
        have hεX : ε ∈ valueDeltas X k := Convergent.mem_of_mem_deltasSince (h.value k) hε
        have hεE : .value k ε ∈ E := hX hεX
        rw [reflects_value_getD V hE hεE, reflects_value_getD V hE hεE, get?_observe_value]
        exact hinner _
      · exact reflects_observe_value_of_ne hk

omit [CausalTimestamp T D] [Authored D] [Summary V D] laws listing in
lemma value_entryAt_insert {e : OrMapEntry V} {removals : SortedMap Dot (K × SortedSet Dot)}
    {c : CausalContext} (hvalue : e.value = (m.entryAt k).value) (k' : K) :
    ((⟨m.entries.insert k e, removals, c⟩ : OrMap K V).entryAt k').value =
      (m.entryAt k').value := by
  by_cases hk : k' = k
  · subst hk
    rw [entryAt_insert_self, hvalue]
  · rw [entryAt_insert_of_ne hk]

omit listing in
/-- A change that leaves the values as they are is seen in the dots alone. -/
lemma reflects_timestamp_of_value_eq (hE : Consistent E) (hε : ε ∈ E) (hd : δ.dot? = some d)
    (hvalues : ∀ k, (u.entryAt k).value = (m.entryAt k).value)
    (hcontext : ∀ e, u.context.contains e = (observe (timestamp m) δ).keys.contains e) :
    reflects (DeltaRing.timestamp u) ε = reflects (observe (DeltaRing.timestamp m) δ) ε := by
  cases hεd : ε.dot? with
  | some e =>
    rw [reflects_of_dot? hεd, reflects_of_dot? hεd]
    exact hcontext e
  | none =>
    obtain ⟨k, ε, rfl⟩ := exists_eq_value hεd
    rw [reflects_observe_of_dot? hd, reflects_timestamp_value hE hε, hvalues,
      reflects_timestamp_value hE hε]

lemma merge_of_not_reflects (hE : Consistent E) (hδ : δ ∈ E)
    (hnew : reflects (DeltaRing.timestamp m) δ = false) : (m.merge δ).2 = .updated ∧
      ∀ ε ∈ E, reflects (DeltaRing.timestamp (m.merge δ).1) ε =
        reflects (observe (DeltaRing.timestamp m) δ) ε := by
  cases hd : δ.dot? with
  | some d =>
    rcases m.merge_cases hd with ⟨hknown, -⟩ | ⟨-, e, removals, hvalue, hmerge⟩
    · rw [reflects_of_dot? hd] at hnew
      cases hknown.symm.trans hnew
    · rw [hmerge]
      refine ⟨rfl, fun ε hε => reflects_timestamp_of_value_eq hE hε hd
        (value_entryAt_insert hvalue) fun _ => ?_⟩
      rw [keys_observe]
      rfl
  | none =>
    obtain ⟨k, δ, rfl⟩ := exists_eq_value hd
    rw [reflects_timestamp_value hE hδ] at hnew
    obtain ⟨hupdated, hvalue⟩ := Listing.merge_of_not_reflects (hE.values k) hδ hnew
    refine ⟨hupdated, fun ε hε => ?_⟩
    cases hεd : ε.dot? with
    | some e =>
      rw [reflects_of_dot? hεd, reflects_of_dot? hεd]
      rfl
    | none =>
      obtain ⟨k', ε, rfl⟩ := exists_eq_value hεd
      by_cases hk : k' = k
      · subst hk
        rw [reflects_timestamp_value hE hε, Bool.eq_iff_iff, reflects_value, get?_observe_value]
        change _ ↔ ∃ tᵥ, some (observe (((timestamp m).values.get? k').getD _) δ) = _ ∧ _
        rw [getD_timestamp, OrMap.merge, ← entryAt, entryAt_insert_self]
        simp [hvalue ε hε]
      · rw [reflects_observe_value_of_ne hk, reflects_timestamp_value hE hε,
          reflects_timestamp_value hE hε, OrMap.merge, entryAt_insert_of_ne hk]

instance : Listing (OrMap K V) where
  timestamp_initial := rfl
  mem_deltasSince_some := mem_deltasSince_some
  nodup_deltasSince m since := nodup_deltasSince m since Listing.nodup_deltasSince
  reflects_observe_self := reflects_observe_self (Listing.reflects_observe_self V)
  reflects_observe_of_reflects :=
    reflects_observe_of_reflects fun _ _ _ => Listing.reflects_observe_of_reflects V
  reflects_observe_of_ne hE hX h hδ hε hne := reflects_observe_of_ne hE hX h hδ hε hne
  mem_deltasSince_union_iff {E X Y Z s u v δ} hE hX hY hZ h hu hv hnew := by
    constructor
    · intro hδ
      have hmem := Set.union_subset hX (hZ.trans hY) (IsSummary.mem_of_mem_deltasSince hv hδ)
      exact (IsSummary.mem_deltasSince_union_iff hE hX hY hZ h hu hv hmem hnew).mp hδ
    · intro hδ
      have hmem := hX (IsSummary.mem_of_mem_deltasSince h hδ)
      exact (IsSummary.mem_deltasSince_union_iff hE hX hY hZ h hu hv hmem hnew).mpr hδ
  merge_of_not_reflects hE hδ hnew := merge_of_not_reflects hE hδ hnew

end OrMap

instance Family.listing : (F : Family) → Listing F.State
  | orSet α => inferInstanceAs (Listing (OrSet α))
  | registry K V => inferInstanceAs (Listing (LwwRegistry K V))
  | orMap K value =>
    have := value.listing
    inferInstanceAs (Listing (OrMap K value.State))

end DeltaRing
