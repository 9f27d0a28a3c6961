import DeltaRing.Proofs.Replication.Enumeration
import DeltaRing.Proofs.Replication.Growth

/-!
Observing deltas instead of merging them.

A cursor observes the deltas that a replica merges. It stays below the timestamp of the replica, and
reflects the same deltas, so that both leave the same to list. They need not be equal: a replica
tracks a key from the first delta on that names it, a cursor from the first delta of its value.
-/

namespace DeltaRing

class Tracking (T D : Type) where
  /-- The timestamp tracks every key whose presence the delta is about, at any depth. -/
  tracks : T → D → Bool

export Tracking (tracks)

class Observing (S : Type) {D T : outParam Type} [CausalTimestamp T D] [DeltaCrdt S D T]
    [Authored D] [Summary S D] [CanonicalForm T] [Tracking T D] : Prop where
  canonical {X : Set D} {s : S} : Summarizes s X → IsCanonical (timestamp s)
  join_bottom {t : T} : IsCanonical t → Lattice.join Lattice.bottom t = t
  growsTo_observe {t t' : T} {δ : D} : IsCanonical t → GrowsTo t t' →
    GrowsTo (observe t δ) (observe t' δ)
  /-- What a delta makes known does not depend on the timestamp. -/
  reflects_of_observe {E : Set D} {t t' : T} {δ ε : D} : Coherent E → ε ∈ E →
    reflects (observe t δ) ε = true → reflects t ε = true ∨ reflects (observe t' δ) ε = true
  growsTo_merge {E X : Set D} {s : S} {δ : D} : Coherent E → X ⊆ E → δ ∈ E → Summarizes s X →
    GrowsTo (observe (timestamp s) δ) (timestamp (merge s δ).1)
  timestamp_merge_eq_iff {E X : Set D} {s : S} {δ : D} : Coherent E → X ⊆ E → δ ∈ E →
    Summarizes s X →
    (timestamp (merge s δ).1 = observe (timestamp s) δ ↔ tracks (timestamp s) δ = true)

/-! ### Sets -/

namespace CausalContext

variable {c c' : CausalContext}

lemma insertAll_growsTo (hc : c.Canonical) (h : GrowsTo c c') (ds : List Dot) :
    GrowsTo (c.insertAll ds) (c'.insertAll ds) where
  canonical := canonical_insertAll h.canonical
  join_eq := by
    have hsub := (merge_eq_right_iff hc h.canonical).mp h.join_eq
    refine (merge_eq_right_iff (canonical_insertAll hc) (canonical_insertAll h.canonical)).mpr ?_
    exact fun d hd => contains_insertAll.mpr ((contains_insertAll.mp hd).imp_left (hsub d))

end CausalContext

namespace OrSet

open OrSetDelta

variable {α : Type} [Key α] {E X : Set (OrSetDelta α)} {s : OrSet α} {δ : OrSetDelta α}

instance : Tracking CausalContext (OrSetDelta α) := ⟨fun _ _ => true⟩

lemma IsSummary.context_merge (hE : Consistent E) (hX : X ⊆ E) (hδ : δ ∈ E) (h : s.IsSummary X) :
    (s.merge δ).1.context = s.context.insertAll δ.dots :=
  (h.merge hE hX hδ).context.eq
    ((h.context.insertAll δ.dots).congr fun d => by rw [dotsIn_insert])

instance : Observing (OrSet α) where
  canonical h := (IsSummary.context h).canonical
  join_bottom := CausalContext.empty_merge
  growsTo_observe hc h := CausalContext.insertAll_growsTo hc h _
  reflects_of_observe _ _ h := (CausalContext.contains_insertAll.mp h).imp_right fun hd =>
    CausalContext.contains_insertAll.mpr (.inr hd)
  growsTo_merge {E X s δ} hE hX hδ h := by
    have hcontext : (s.merge δ).1.context = observe s.context δ :=
      IsSummary.context_merge hE hX hδ h
    change GrowsTo (observe s.context δ) (s.merge δ).1.context
    rw [hcontext]
    exact .refl (CausalContext.canonical_insertAll (IsSummary.context h).canonical)
  timestamp_merge_eq_iff hE hX hδ h := iff_of_true (IsSummary.context_merge hE hX hδ h) rfl

end OrSet

/-! ### Registries -/

namespace LwwRegistry

variable {K V : Type} [Key K] {r : LwwRegistry K V} {t t' : LwwTimestamp K} {δ ε : LwwDelta K V}

instance : Tracking (LwwTimestamp K) (LwwDelta K V) := ⟨fun _ _ => true⟩

/-- A write that is beaten does not change the timestamp either. -/
lemma observe_of_reflects (h : reflects t δ = true) : observe t δ = t := by
  have hget : ∀ k, (observe t δ).stamps.get? k = t.stamps.get? k := by
    intro k
    by_cases hk : k = δ.key
    · obtain ⟨seen, hseen, hle⟩ := reflects_iff.mp h
      rw [hk, get?_observe, hseen, LwwStamp.newerOf, if_neg (by simp [hle])]
    · exact SortedMap.get?_alter_of_ne hk _
  exact congrArg LwwTimestamp.mk (SortedMap.ext hget)

lemma timestamp_merge (r : LwwRegistry K V) (δ : LwwDelta K V) :
    timestamp (r.merge δ).1 = observe (timestamp r) δ := by
  cases hδ : reflects (timestamp r) δ with
  | true => rw [merge_of_blocking hδ, observe_of_reflects hδ]
  | false => rw [merge_of_not_blocking hδ, timestamp_insert hδ]

lemma observe_growsTo (h : GrowsTo t t') : GrowsTo (observe t δ) (observe t' δ) where
  canonical := trivial
  join_eq := join_eq_right_iff.mpr fun k a ha => by
    have hbelow := join_eq_right_iff.mp h.join_eq
    by_cases hk : k = δ.key
    · subst hk
      rw [get?_observe, Option.some.injEq] at ha
      refine ⟨_, get?_observe, ?_⟩
      cases hx : t.stamps.get? δ.key with
      | none =>
        rw [hx, LwwStamp.newerOf] at ha
        exact ha ▸ newerOf_not_isBelow_self
      | some x =>
        obtain ⟨y, hy, hxy⟩ := hbelow _ x hx
        rw [hx, LwwStamp.newerOf] at ha
        split at ha
        · exact ha ▸ newerOf_not_isBelow_self
        · rw [hy, ← ha]
          exact LwwStamp.newerOf_not_isBelow hxy
    · obtain ⟨b, hb, hle⟩ := hbelow k a ((SortedMap.get?_alter_of_ne hk _).symm.trans ha)
      exact ⟨b, (SortedMap.get?_alter_of_ne hk _).trans hb, hle⟩

lemma reflects_of_observe (h : reflects (observe t δ) ε = true) :
    reflects t ε = true ∨ reflects (observe t' δ) ε = true := by
  by_cases hk : ε.key = δ.key
  · obtain ⟨s, hs, hle⟩ := reflects_iff.mp h
    rw [hk, get?_observe, Option.some.injEq] at hs
    have hmade : δ.stamp.isBelow ε.stamp = false → reflects (observe t' δ) ε = true := fun hδε =>
      reflects_iff.mpr ⟨_, by rw [hk]; exact get?_observe,
        LwwStamp.not_isBelow_trans newerOf_not_isBelow_self hδε⟩
    -- the stamp after observing is one of the two
    cases ht : t.stamps.get? δ.key with
    | none =>
      rw [ht, LwwStamp.newerOf] at hs
      exact .inr (hmade (hs ▸ hle))
    | some seen =>
      rw [ht, LwwStamp.newerOf] at hs
      split at hs
      · exact .inr (hmade (hs ▸ hle))
      · exact .inl (reflects_iff.mpr ⟨seen, hk ▸ ht, hs ▸ hle⟩)
  · exact .inl (by rwa [reflects_observe_of_key_ne hk] at h)

instance : Observing (LwwRegistry K V) where
  canonical _ := trivial
  join_bottom _ := join_eq_right_iff.mpr fun k a ha => by cases ha
  growsTo_observe _ h := observe_growsTo h
  reflects_of_observe _ _ h := reflects_of_observe h
  growsTo_merge {E X r δ} _ _ _ _ := by
    change GrowsTo (observe (timestamp r) δ) (timestamp (r.merge δ).1)
    rw [timestamp_merge]
    exact .refl trivial
  timestamp_merge_eq_iff _ _ _ _ := iff_of_true (timestamp_merge _ _) rfl

end LwwRegistry

/-! ### Maps -/

namespace OrMap

open OrMapDelta

section

variable {K T D : Type} [Key K] [CausalTimestamp T D] {t t' : MapTimestamp K T}
  {δ : OrMapDelta K D} {k k' : K} {d : Dot}

instance [Tracking T D] : Tracking (MapTimestamp K T) (OrMapDelta K D) where
  tracks
    | t, .add k _ => (t.values.get? k).isSome
    | t, .remove k _ _ => (t.values.get? k).isSome
    | t, .value k δ => tracks ((t.values.get? k).getD Lattice.bottom) δ

lemma tracks_of_dot? [Tracking T D] (hd : δ.dot? = some d) :
    tracks t δ = (t.values.get? δ.key).isSome := by
  cases δ <;> cases hd <;> rfl

lemma values_observe_of_dot? (hd : δ.dot? = some d) : (observe t δ).values = t.values := by
  cases δ <;> cases hd <;> rfl

lemma get?_observe_value_of_ne {δ : D} (hk : k' ≠ k) :
    (observe t (.value k δ : OrMapDelta K D)).values.get? k' = t.values.get? k' :=
  SortedMap.get?_alter_of_ne hk _

end

section

variable {K V D T : Type} [Key K] [DeltaCrdt V D T] {m : OrMap K V} {δ : OrMapDelta K D} {k k' : K}
  {d : Dot}

lemma get?_timestamp_of_isSome (h : (m.entries.get? k).isSome) :
    (timestamp m).values.get? k = some (DeltaRing.timestamp (m.entryAt k).value) := by
  obtain ⟨e, he⟩ := Option.isSome_iff_exists.mp h
  rw [get?_timestamp, he, entryAt_of_get? he]
  rfl

/-- Deltas about the presence of a key leave the values as they are. -/
lemma value_entryAt_merge (hd : δ.dot? = some d) (k : K) :
    ((m.merge δ).1.entryAt k).value = (m.entryAt k).value := by
  rcases m.merge_cases hd with ⟨-, hmerge⟩ | ⟨-, e, removals, hvalue, hmerge⟩ <;> rw [hmerge]
  exact value_entryAt_insert hvalue k

lemma value_entryAt_merge_value {δ : D} : ((m.merge (.value k δ)).1.entryAt k).value =
    (DeltaRing.merge (m.entryAt k).value δ).1 := by
  rw [OrMap.merge, ← entryAt, entryAt_insert_self]

lemma entryAt_merge_value_of_ne {δ : D} (hk : k' ≠ k) :
    (m.merge (.value k δ)).1.entryAt k' = m.entryAt k' := by
  rw [OrMap.merge, ← entryAt, entryAt_insert_of_ne hk]

end

variable {K V D T : Type} [Key K] [CausalTimestamp T D] [DeltaCrdt V D T] [Authored D]
  [Summary V D] [CanonicalForm T] {E X : Set (OrMapDelta K D)} {m : OrMap K V}
  {t t' : MapTimestamp K T} {δ ε : OrMapDelta K D} {k : K} {d : Dot}

omit [Authored D] in
lemma growsTo_iff : GrowsTo t t' ↔ GrowsTo t.keys t'.keys ∧
    (∀ k b, t'.values.get? k = some b → IsCanonical b) ∧
    ∀ k a, t.values.get? k = some a → ∃ b, t'.values.get? k = some b ∧ Lattice.join a b = b := by
  constructor
  · intro h
    obtain ⟨hkeys, hvalues⟩ := join_eq_right_iff.mp h.join_eq
    exact ⟨⟨h.canonical.1, hkeys⟩, h.canonical.2, hvalues⟩
  · rintro ⟨hkeys, hcanonical, hvalues⟩
    exact ⟨⟨hkeys.canonical, hcanonical⟩, join_eq_right_iff.mpr ⟨hkeys.join_eq, hvalues⟩⟩

variable [Tracking T D] [laws : Convergent V] [listing : Listing V] [observing : Observing V]

variable (V) in
include laws listing observing in
lemma canonical_getD (ht : IsCanonical t) (k : K) :
    IsCanonical ((t.values.get? k).getD Lattice.bottom) := by
  cases hk : t.values.get? k with
  | none =>
    rw [Option.getD_none, ← Listing.timestamp_initial (S := V)]
    exact Observing.canonical Convergent.summarizes_initial
  | some a => exact ht.2 k a hk

variable (V) in
include laws listing observing in
lemma getD_growsTo (h : GrowsTo t t') (k : K) :
    GrowsTo ((t.values.get? k).getD Lattice.bottom) ((t'.values.get? k).getD Lattice.bottom) := by
  have hcanonical := canonical_getD V h.canonical k
  refine ⟨hcanonical, ?_⟩
  cases hk : t.values.get? k with
  | none => exact Observing.join_bottom V hcanonical
  | some a =>
    obtain ⟨b, hb, hab⟩ := (growsTo_iff.mp h).2.2 k a hk
    rwa [hb]

variable (V) in
include laws listing observing in
lemma observe_growsTo (ht : IsCanonical t) (h : GrowsTo t t') :
    GrowsTo (observe t δ) (observe t' δ) := by
  obtain ⟨hkeys, hcanonical, hvalues⟩ := growsTo_iff.mp h
  refine growsTo_iff.mpr ⟨?_, ?_⟩
  · rw [keys_observe, keys_observe]
    exact CausalContext.insertAll_growsTo ht.1 hkeys δ.dots
  cases hd : δ.dot? with
  | some d =>
    rw [values_observe_of_dot? hd, values_observe_of_dot? hd]
    exact ⟨hcanonical, hvalues⟩
  | none =>
    obtain ⟨k, δ, rfl⟩ := exists_eq_value hd
    have hvalue : GrowsTo (observe ((t.values.get? k).getD Lattice.bottom) δ)
        (observe ((t'.values.get? k).getD Lattice.bottom) δ) :=
      Observing.growsTo_observe V (canonical_getD V ht k) (getD_growsTo V h k)
    constructor
    · intro k' b hb
      by_cases hk : k' = k
      · subst hk
        rw [get?_observe_value, Option.some.injEq] at hb
        exact hb ▸ hvalue.canonical
      · rw [get?_observe_value_of_ne hk] at hb
        exact hcanonical k' b hb
    · intro k' a ha
      by_cases hk : k' = k
      · subst hk
        rw [get?_observe_value, Option.some.injEq] at ha
        exact ⟨_, get?_observe_value, ha ▸ hvalue.join_eq⟩
      · rw [get?_observe_value_of_ne hk] at ha ⊢
        exact hvalues k' a ha

variable (V) in
include laws listing observing in
lemma reflects_of_observe (hE : Consistent E) (hε : ε ∈ E) (h : reflects (observe t δ) ε = true) :
    reflects t ε = true ∨ reflects (observe t' δ) ε = true := by
  cases hd : ε.dot? with
  | some e =>
    rw [reflects_of_dot? hd, keys_observe] at h
    rw [reflects_of_dot? hd, reflects_of_dot? hd, keys_observe]
    exact (CausalContext.contains_insertAll.mp h).imp_right fun he =>
      CausalContext.contains_insertAll.mpr (.inr he)
  | none =>
    obtain ⟨k, ε, rfl⟩ := exists_eq_value hd
    cases δ with
    | add k' d => exact .inl (by rwa [reflects_observe_of_dot? (d := d) rfl] at h)
    | remove k' r ts => exact .inl (by rwa [reflects_observe_of_dot? (d := r) rfl] at h)
    | value k' δ =>
      by_cases hk : k = k'
      · subst hk
        rw [reflects_value_getD V hE hε, get?_observe_value] at h
        rw [reflects_value_getD V hE hε, reflects_value_getD V hE hε, get?_observe_value]
        exact Observing.reflects_of_observe V (hE.values k) hε h
      · exact .inl (by rwa [reflects_observe_value_of_ne hk] at h)

/-! ### Maps that merge -/

omit [CanonicalForm T] [Tracking T D] listing observing in
lemma IsSummary.context_merge (hE : Consistent E) (hX : X ⊆ E) (hδ : δ ∈ E) (h : m.IsSummary X) :
    (m.merge δ).1.context = (observe (timestamp m) δ).keys := by
  rw [keys_observe]
  refine (h.merge hE hX hδ).context.eq ((h.context.insertAll δ.dots).congr fun d => ?_)
  rw [mem_dotsIn_insert, ← mem_dots_iff]
  exact or_comm

omit [CanonicalForm T] [Tracking T D] listing observing in
/-- A delta that leaves the value of a key as it is leaves its timestamp, if the key was tracked or
is not the delta's own. -/
lemma IsSummary.get?_timestamp_merge (hE : Consistent E) (hX : X ⊆ E) (hδ : δ ∈ E)
    (h : m.IsSummary X) (hk : δ.key = k → (m.entries.get? k).isSome)
    (hvalue : ((m.merge δ).1.entryAt k).value = (m.entryAt k).value) :
    (timestamp (m.merge δ).1).values.get? k = (timestamp m).values.get? k := by
  have htracked : ((m.merge δ).1.entries.get? k).isSome ↔ (m.entries.get? k).isSome := by
    rw [(h.merge hE hX hδ).tracked, Set.exists_mem_insert, ← h.tracked]
    exact or_iff_right_of_imp hk
  by_cases hm : (m.entries.get? k).isSome
  · rw [get?_timestamp_of_isSome (htracked.mpr hm), hvalue, get?_timestamp_of_isSome hm]
  · have hm' := mt htracked.mp hm
    rw [Option.not_isSome_iff_eq_none] at hm hm'
    rw [get?_timestamp, get?_timestamp, hm, hm']

omit laws listing in
lemma IsSummary.canonical_timestamp (h : m.IsSummary X) : IsCanonical (timestamp m) := by
  refine ⟨h.context.canonical, fun k t ht => ?_⟩
  rw [get?_timestamp, Option.map_eq_some_iff] at ht
  obtain ⟨e, he, rfl⟩ := ht
  rw [← entryAt_of_get? he]
  exact Observing.canonical (h.value k)

omit [CanonicalForm T] [Tracking T D] listing observing in
/-- The value of a key after one of its deltas. -/
lemma IsSummary.get?_timestamp_merge_value (hE : Consistent E) (hX : X ⊆ E) {δ : D}
    (hδ : .value k δ ∈ E) (h : m.IsSummary X) :
    (timestamp (m.merge (.value k δ)).1).values.get? k =
      some (DeltaRing.timestamp (DeltaRing.merge (m.entryAt k).value δ).1) := by
  have htracked : ((m.merge (.value k δ)).1.entries.get? k).isSome :=
    ((h.merge hE hX hδ).tracked k).mpr ⟨_, Set.mem_insert _ _, rfl⟩
  rw [get?_timestamp_of_isSome htracked, value_entryAt_merge_value]

omit [CanonicalForm T] [Tracking T D] laws observing in
lemma get?_observe_timestamp {δ : D} :
    (observe (timestamp m) (.value k δ : OrMapDelta K D)).values.get? k =
      some (observe (DeltaRing.timestamp (m.entryAt k).value) δ) := by
  rw [get?_observe_value, getD_timestamp]

/-- What a map has merged it has observed, but for the keys that it tracks since. -/
lemma IsSummary.growsTo_merge (hE : Consistent E) (hX : X ⊆ E) (hδ : δ ∈ E) (h : m.IsSummary X) :
    GrowsTo (observe (timestamp m) δ) (timestamp (m.merge δ).1) := by
  have hcanonical := (h.merge hE hX hδ).canonical_timestamp
  refine growsTo_iff.mpr ⟨?_, hcanonical.2, fun k' a ha => ?_⟩
  · rw [← h.context_merge hE hX hδ]
    exact .refl hcanonical.1
  -- a key that was tracked, and whose value stays as it is
  have hkept (hsame : (observe (timestamp m) δ).values.get? k' = (timestamp m).values.get? k')
      (hvalue : ((m.merge δ).1.entryAt k').value = (m.entryAt k').value) :
      ∃ b, (timestamp (m.merge δ).1).values.get? k' = some b ∧ Lattice.join a b = b := by
    rw [hsame] at ha
    have htracked : ((timestamp m).values.get? k').isSome := by rw [ha, Option.isSome_some]
    rw [get?_timestamp, Option.isSome_map] at htracked
    rw [← h.get?_timestamp_merge hE hX hδ (fun _ => htracked) hvalue] at ha
    exact ⟨a, ha, CanonicalForm.join_self (hcanonical.2 k' a ha)⟩
  cases hd : δ.dot? with
  | some d => exact hkept (by rw [values_observe_of_dot? hd]) (value_entryAt_merge hd k')
  | none =>
    obtain ⟨k, δ, rfl⟩ := exists_eq_value hd
    by_cases hk : k' = k
    · subst hk
      rw [get?_observe_timestamp, Option.some.injEq] at ha
      refine ⟨_, h.get?_timestamp_merge_value hE hX hδ, ha ▸ ?_⟩
      exact (Observing.growsTo_merge (hE.values k') (valueDeltas_mono hX) hδ (h.value k')).join_eq
    · exact hkept (get?_observe_value_of_ne hk) (by rw [entryAt_merge_value_of_ne hk])

lemma IsSummary.timestamp_merge_eq_iff (hE : Consistent E) (hX : X ⊆ E) (hδ : δ ∈ E)
    (h : m.IsSummary X) :
    timestamp (m.merge δ).1 = observe (timestamp m) δ ↔ tracks (timestamp m) δ = true := by
  have hvalues : timestamp (m.merge δ).1 = observe (timestamp m) δ ↔
      ∀ k, (timestamp (m.merge δ).1).values.get? k = (observe (timestamp m) δ).values.get? k :=
    ⟨fun heq k => by rw [heq], timestamp_ext (h.context_merge hE hX hδ)⟩
  rw [hvalues]
  cases hd : δ.dot? with
  | some d =>
    rw [tracks_of_dot? hd, values_observe_of_dot? hd, get?_timestamp, Option.isSome_map]
    have hvalue := value_entryAt_merge (m := m) hd
    constructor
    · intro heq
      have htracked : ((m.merge δ).1.entries.get? δ.key).isSome :=
        ((h.merge hE hX hδ).tracked _).mpr ⟨δ, Set.mem_insert _ _, rfl⟩
      have hkey := heq δ.key
      rw [get?_timestamp_of_isSome htracked, get?_timestamp] at hkey
      simpa using congrArg Option.isSome hkey.symm
    · intro htracked k
      exact h.get?_timestamp_merge hE hX hδ (fun hk => hk ▸ htracked) (hvalue k)
  | none =>
    obtain ⟨k, δ, rfl⟩ := exists_eq_value hd
    have hinner := Observing.timestamp_merge_eq_iff (hE.values k) (valueDeltas_mono hX) hδ
      (h.value k)
    change _ ↔ tracks (((timestamp m).values.get? k).getD Lattice.bottom) δ = true
    rw [getD_timestamp, ← hinner]
    constructor
    · intro heq
      have hkey := heq k
      rwa [h.get?_timestamp_merge_value hE hX hδ, get?_observe_timestamp,
        Option.some.injEq] at hkey
    · intro heq k'
      by_cases hk : k' = k
      · subst hk
        rw [h.get?_timestamp_merge_value hE hX hδ, get?_observe_timestamp, heq]
      · rw [get?_observe_value_of_ne hk]
        exact h.get?_timestamp_merge hE hX hδ (fun heq => absurd heq.symm hk)
          (by rw [entryAt_merge_value_of_ne hk])

instance : Observing (OrMap K V) where
  canonical h := IsSummary.canonical_timestamp h
  join_bottom h := join_eq_right_iff.mpr
    ⟨CausalContext.empty_merge h.1, fun k a ha => by cases ha⟩
  growsTo_observe ht h := observe_growsTo V ht h
  reflects_of_observe hE hε h := reflects_of_observe V hE hε h
  growsTo_merge hE hX hδ h := IsSummary.growsTo_merge hE hX hδ h
  timestamp_merge_eq_iff hE hX hδ h := IsSummary.timestamp_merge_eq_iff hE hX hδ h

end OrMap

namespace Family

instance tracking : (F : Family) → Tracking F.Timestamp F.Delta
  | orSet α => inferInstanceAs (Tracking CausalContext (OrSetDelta α))
  | registry K V => inferInstanceAs (Tracking (LwwTimestamp K) (LwwDelta K V))
  | orMap K value =>
    have := value.tracking
    inferInstanceAs (Tracking (MapTimestamp K value.Timestamp) (OrMapDelta K value.Delta))

instance observing : (F : Family) → Observing F.State
  | orSet α => inferInstanceAs (Observing (OrSet α))
  | registry K V => inferInstanceAs (Observing (LwwRegistry K V))
  | orMap K value =>
    have := value.observing
    inferInstanceAs (Observing (OrMap K value.State))

end Family

/-! ### Cursors that follow a replica -/

section

variable {S D T : Type} [CausalTimestamp T D] [DeltaCrdt S D T] [Authored D] [Summary S D]
  [CanonicalForm T] {E X Y : Set D} {s u : S} {t : T} {δ ε : D} {ds : List D}

/-- A cursor is below the timestamp of a replica, and reflects whatever the replica does. -/
structure Follows (E : Set D) (t : T) (s : S) : Prop where
  canonical : IsCanonical t
  growsTo : GrowsTo t (timestamp s)
  knows : ∀ ε ∈ E, reflects (timestamp s) ε = true → reflects t ε = true

namespace Follows

lemma refl [Tracking T D] [Observing S] (h : Summarizes s X) : Follows E (timestamp s) s :=
  ⟨Observing.canonical h, .refl (Observing.canonical h), fun _ _ => id⟩

lemma step [Tracking T D] [Convergent S] [Listing S] [Observing S] (hE : Coherent E)
    (hX : X ⊆ E) (hδ : δ ∈ E) (hs : Summarizes s X) (h : Follows E t s) :
    Follows E (observe t δ) (merge s δ).1 where
  canonical := (Observing.growsTo_observe S h.canonical (.refl h.canonical)).canonical
  growsTo := (Observing.growsTo_observe S h.canonical h.growsTo).trans
    (Observing.growsTo_merge hE hX hδ hs)
  knows ε hε hmerged := by
    have hobserved : reflects (observe (timestamp s) δ) ε = true := by
      cases hknown : reflects (timestamp s) δ with
      | true =>
        rw [Convergent.merge_of_reflects hknown] at hmerged
        exact Listing.reflects_observe_of_reflects S hmerged
      | false =>
        rwa [(Listing.merge_of_not_reflects hE hδ hknown).2 ε hε] at hmerged
    have hcases : reflects (timestamp s) ε = true ∨ reflects (observe t δ) ε = true :=
      Observing.reflects_of_observe S hE hε hobserved
    exact hcases.elim
      (fun hold => Listing.reflects_observe_of_reflects S (h.knows ε hε hold)) id

lemma steps [Tracking T D] [Convergent S] [Listing S] [Observing S] (hE : Coherent E)
    (hX : X ⊆ E) (hds : ∀ δ ∈ ds, δ ∈ E) (hs : Summarizes s X) (h : Follows E t s) :
    Follows E (observeAll t ds) (mergeAll s ds).1 := by
  induction ds generalizing s t X with
  | nil => exact h
  | cons δ ds ih =>
    have hδ := hds δ (by simp)
    rw [observeAll_cons, mergeAll_cons]
    exact ih (Set.insert_subset hδ hX) (fun ε hε => hds ε (by simp [hε]))
      (Convergent.summarizes_merge hE hX hδ hs) (h.step hE hX hδ hs)

omit [Authored D] [Summary S D] in
lemma reflects_eq [Retentive S] (h : Follows E t s) (hε : ε ∈ E) :
    reflects t ε = reflects (timestamp s) ε := by
  rw [Bool.eq_iff_iff]
  refine ⟨fun hknown => ?_, h.knows ε hε⟩
  rw [← h.growsTo.join_eq]
  exact Retentive.reflects_join S hknown

lemma deltasSince_eq [Convergent S] [Retentive S] [OrderedListing S] (hY : Y ⊆ E)
    (hu : Summarizes u Y) (h : Follows E t s) :
    deltasSince u (some t) = deltasSince u (some (timestamp s)) := by
  rw [OrderedListing.deltasSince_some, OrderedListing.deltasSince_some]
  refine List.filter_congr fun ε hε => ?_
  rw [h.reflects_eq (hY (Convergent.mem_of_mem_deltasSince hu hε))]

end Follows

end

/-- **Observing follows merging.** A replica of a run merges a delta of the run, and its timestamp
observes the delta: the timestamps are equal if and only if the timestamp tracks the keys of the
delta. Whatever deltas a cursor observes and the replica merges from then on, the cursor is below
the timestamp of the replica, reflects the same deltas of the run, and leaves every replica the same
deltas to list. -/
theorem observe_follows_merge {ι : Type} [DecidableEq ι] (F : Family) [DecidableEq F.Timestamp]
    (actor : ι ↪ Actor) (events : List (Event ι F.Operation F.Timestamp)) (n : Nat) (i : ι) :
    let w : World ι F.State F.Delta := World.run actor events
    let s := (World.run actor (events.take n) : World ι F.State F.Delta).replica i
    (∀ δ ∈ w.emitted, timestamp (merge s δ).1 = observe (timestamp s) δ ↔
      tracks (timestamp s) δ = true) ∧
    ∀ ds, (∀ δ ∈ ds, δ ∈ w.emitted) →
      let cursor := observeAll (timestamp s) ds
      let reached := timestamp (mergeAll s ds).1
      Lattice.leq cursor reached = true ∧
      (∀ ε ∈ w.emitted, reflects cursor ε = reflects reached ε) ∧
      ∀ j, deltasSince (w.replica j) (some cursor) = deltasSince (w.replica j) (some reached) := by
  intro w s
  have hkin := fun j => World.kin_run F actor events n events.length i j
  simp only [List.take_length] at hkin
  obtain ⟨hE, hX, -, hs, -⟩ := hkin i
  refine ⟨fun δ hδ => Observing.timestamp_merge_eq_iff hE hX hδ hs, fun ds hds => ?_⟩
  have h : Follows {δ | δ ∈ w.emitted} (observeAll (timestamp s) ds) (mergeAll s ds).1 :=
    (Follows.refl hs).steps hE hX hds hs
  exact ⟨Lattice.leq_iff.mpr h.growsTo.join_eq, fun ε hε => h.reflects_eq hε,
    fun j => h.deltasSince_eq (hkin j).right_subset (hkin j).right⟩

def newKey :
    List (Event Bool (Family.orMap Nat (.orSet Nat)).Operation
      (Family.orMap Nat (.orSet Nat)).Timestamp) :=
  [.operate false (OrMapOperation.mutate 1 [OrSetOperation.add 5])]

/-- The value may come first; and whatever comes, the cursor stays below. -/
theorem observe_newKey :
    let m : OrMap Nat (OrSet Nat) := (World.run twoActors newKey :
      World Bool (Family.orMap Nat (.orSet Nat)).State _).replica true
    let key : OrMapDelta Nat (OrSetDelta Nat) := .add 1 ⟨"a", 1⟩
    let value : OrMapDelta Nat (OrSetDelta Nat) := .value 1 (.add ⟨"a", 1⟩ 5)
    timestamp (merge m value).1 = observe (timestamp m) value ∧
      Lattice.leq (observeAll (timestamp m) [key, value]) (timestamp (mergeAll m [key, value]).1)
        = true := by
  intro m key value
  have hemitted : ∀ δ ∈ [key, value], δ ∈ (World.run twoActors newKey :
      World Bool (Family.orMap Nat (.orSet Nat)).State _).emitted := fun _ => id
  have h := @observe_follows_merge Bool _ (.orMap Nat (.orSet Nat))
    (inferInstanceAs (DecidableEq (MapTimestamp Nat CausalContext))) twoActors newKey 1 true
  have htracked : tracks (timestamp m) value = true := by decide +kernel
  exact ⟨(h.1 value (hemitted value (by simp))).mpr htracked, (h.2 [key, value] hemitted).1⟩

/-- If the key comes first, the replica tracks it and the cursor does not. -/
theorem observe_ne_of_newKey :
    let m : OrMap Nat (OrSet Nat) := (World.run twoActors newKey :
      World Bool (Family.orMap Nat (.orSet Nat)).State _).replica true
    let emitted : List (OrMapDelta Nat (OrSetDelta Nat)) := (World.run twoActors newKey :
      World Bool (Family.orMap Nat (.orSet Nat)).State _).emitted
    ∃ δ ∈ emitted, timestamp (merge m δ).1 ≠ observe (timestamp m) δ ∧
      Lattice.leq (timestamp (merge m δ).1) (observe (timestamp m) δ) = false := by
  intro m emitted
  exact ⟨.add 1 ⟨"a", 1⟩, List.mem_cons_self, by decide +kernel⟩

end DeltaRing
