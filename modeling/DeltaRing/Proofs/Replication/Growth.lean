import DeltaRing.Proofs.Replication.Freshness

/-!
Timestamps only grow.

Timestamps are ordered by their joins. In whatever order deltas come, and whatever operations are
applied between them, the timestamp of a replica is above all that it has been before. What makes
the joins an order is that replicas keep their contexts canonical; a timestamp that was read from
elsewhere need not be, and is still below everything that is above a replica that covers it.
-/

namespace DeltaRing

/-- Timestamps of which some have a form that their meaning determines, in which they are ordered by
their joins. -/
class CanonicalForm (T : Type) [Lattice T] where
  IsCanonical : T → Prop
  join_self {t : T} : IsCanonical t → Lattice.join t t = t
  join_trans {t a b : T} : IsCanonical a → IsCanonical b → Lattice.join t a = a →
    Lattice.join a b = b → Lattice.join t b = b

export CanonicalForm (IsCanonical)

structure GrowsTo {T : Type} [Lattice T] [CanonicalForm T] (t t' : T) : Prop where
  canonical : IsCanonical t'
  join_eq : Lattice.join t t' = t'

namespace GrowsTo

variable {T : Type} [Lattice T] [CanonicalForm T] {t a b : T}

lemma refl (h : IsCanonical t) : GrowsTo t t := ⟨h, CanonicalForm.join_self h⟩

lemma trans (h : GrowsTo t a) (h' : GrowsTo a b) : GrowsTo t b :=
  ⟨h'.canonical, CanonicalForm.join_trans h.canonical h'.canonical h.join_eq h'.join_eq⟩

lemma leq_of_leq [DecidableEq T] (h : GrowsTo a b) (ha : IsCanonical a)
    (hle : Lattice.leq t a = true) : Lattice.leq t b = true :=
  Lattice.leq_iff.mpr
    (CanonicalForm.join_trans ha h.canonical (Lattice.leq_iff.mp hle) h.join_eq)

end GrowsTo

class Growing (S : Type) {D T : outParam Type} [CausalTimestamp T D] [DeltaCrdt S D T]
    [CanonicalForm T] : Prop where
  canonical_initial : IsCanonical (timestamp (initial : S))
  growsTo_merge {s : S} {δ : D} : IsCanonical (timestamp s) →
    GrowsTo (timestamp s) (timestamp (merge s δ).1)

class GrowingByOperations (S : Type) {D T O R K : outParam Type} [CausalTimestamp T D]
    [DeltaCrdt S D T] [Operable S D O R K] [CanonicalForm T] : Prop where
  growsTo_apply {s : S} {a : Actor} {op : O} : IsCanonical (timestamp s) →
    GrowsTo (timestamp s) (timestamp (Operable.apply s a op).1)

lemma growsTo_mergeAll {S D T : Type} [CausalTimestamp T D] [DeltaCrdt S D T] [CanonicalForm T]
    [Growing S] {s : S} {l : List D} (h : IsCanonical (timestamp s)) :
    GrowsTo (timestamp s) (timestamp (mergeAll s l).1) := by
  induction l generalizing s with
  | nil => exact .refl h
  | cons δ l ih =>
    have hδ : GrowsTo (timestamp s) (timestamp (merge s δ).1) := Growing.growsTo_merge h
    rw [mergeAll_cons]
    exact hδ.trans (ih hδ.canonical)

/-! ### Sets -/

namespace CausalContext

variable {c : CausalContext}

instance : CanonicalForm CausalContext where
  IsCanonical := Canonical
  join_self h := (merge_eq_right_iff h h).mpr fun _ => id
  join_trans := merge_eq_right_trans

lemma growsTo_insertAll (h : c.Canonical) (ds : List Dot) : GrowsTo c (c.insertAll ds) where
  canonical := canonical_insertAll h
  join_eq := (merge_eq_right_iff h (canonical_insertAll h)).mpr fun _ hd =>
    contains_insertAll.mpr (.inl hd)

end CausalContext

namespace OrSet

open CausalContext

variable {α : Type} [Key α] {s : OrSet α}

lemma context_merge (s : OrSet α) (δ : OrSetDelta α) :
    ∃ ds, (s.merge δ).1.context = s.context.insertAll ds := by
  unfold OrSet.merge
  split
  · exact ⟨[], rfl⟩
  · cases δ with
    | add d x => exact ⟨[d], rfl⟩
    | remove r ts => exact ⟨_, rfl⟩

lemma context_apply (s : OrSet α) (a : Actor) (op : OrSetOperation α) :
    ∃ ds, (Operable.apply s a op).1.context = s.context.insertAll ds := by
  cases op with
  | add x => exact ⟨[s.context.nextDot a], rfl⟩
  | remove x =>
    rcases s.remove_cases a x with ⟨hc, -⟩ | ⟨ts, hc, -⟩
    · exact ⟨[], hc⟩
    · exact ⟨[s.context.nextDot a], hc⟩

instance : Growing (OrSet α) where
  canonical_initial := canonical_empty
  growsTo_merge {s δ} h := by
    obtain ⟨ds, hds⟩ := s.context_merge δ
    change GrowsTo s.context (s.merge δ).1.context
    exact hds ▸ growsTo_insertAll h ds

instance : GrowingByOperations (OrSet α) where
  growsTo_apply {s a op} h := by
    obtain ⟨ds, hds⟩ := s.context_apply a op
    change GrowsTo s.context (Operable.apply s a op).1.context
    exact hds ▸ growsTo_insertAll h ds

end OrSet

/-! ### Registries -/

namespace LwwRegistry

variable {K V : Type} [Key K] {r : LwwRegistry K V} {t t' : LwwTimestamp K} {δ : LwwDelta K V}

lemma join_eq_right_iff : Lattice.join t t' = t' ↔ ∀ k a, t.stamps.get? k = some a →
    ∃ b, t'.stamps.get? k = some b ∧ b.isBelow a = false := by
  have hext : Lattice.join t t' = t' ↔
      ∀ k, (Lattice.join t t').stamps.get? k = t'.stamps.get? k :=
    ⟨fun h k => by rw [h], fun h => congrArg LwwTimestamp.mk (SortedMap.ext h)⟩
  rw [hext]
  refine forall_congr' fun k => ?_
  rw [get?_join]
  cases t.stamps.get? k <;> cases t'.stamps.get? k
  · simp
  · simp [LwwStamp.newerOf]
  · simp
  · rename_i a b
    simp only [Option.elim_some, Option.some.injEq, LwwStamp.newerOf, forall_eq', exists_eq_left']
    split
    · rename_i hab
      simp [LwwStamp.isBelow_asymm hab]
    · rename_i hab
      constructor
      · rintro rfl
        exact LwwStamp.isBelow_self
      · exact fun hba => LwwStamp.eq_of_not_isBelow (by simpa using hab) hba

instance : CanonicalForm (LwwTimestamp K) where
  IsCanonical _ := True
  join_self _ := join_eq_right_iff.mpr fun _ a ha => ⟨a, ha, LwwStamp.isBelow_self⟩
  join_trans _ _ hta hab := join_eq_right_iff.mpr fun k x hx => by
    obtain ⟨y, hy, hxy⟩ := join_eq_right_iff.mp hta k x hx
    obtain ⟨z, hz, hyz⟩ := join_eq_right_iff.mp hab k y hy
    exact ⟨z, hz, LwwStamp.not_isBelow_trans hyz hxy⟩

lemma growsTo_timestamp_merge : GrowsTo (timestamp r) (timestamp (r.merge δ).1) where
  canonical := trivial
  join_eq := join_eq_right_iff.mpr fun k a ha => by
    rw [get?_timestamp, Option.map_eq_some_iff] at ha
    obtain ⟨e, he, rfl⟩ := ha
    -- the registry reflects the write that left the entry
    have hr : reflects (timestamp r) (LwwDelta.ofEntry k e) = true :=
      reflects_timestamp_iff.mpr ⟨e, by simpa using he, by simp [LwwStamp.isBelow_self]⟩
    obtain ⟨e', he', hle⟩ := reflects_timestamp_iff.mp (reflects_timestamp_merge (ε := δ) hr)
    rw [LwwDelta.key_ofEntry] at he'
    rw [LwwDelta.stamp_ofEntry] at hle
    exact ⟨e'.stamp, by rw [get?_timestamp, he']; rfl, hle⟩

instance : Growing (LwwRegistry K V) where
  canonical_initial := trivial
  growsTo_merge _ := growsTo_timestamp_merge

instance : GrowingByOperations (LwwRegistry K V) where
  growsTo_apply {s a op} h := by
    cases hb : reflects (timestamp s) (op.delta a) with
    | true =>
      obtain ⟨output, happly⟩ := apply_of_reflects hb
      rw [happly]
      exact .refl h
    | false =>
      rw [apply_of_not_reflects hb]
      exact growsTo_timestamp_merge

end LwwRegistry

/-! ### Maps -/

namespace OrMap

open CausalContext

section

variable {K T : Type} [Key K] [Lattice T] {t t' : MapTimestamp K T}

omit [Lattice T] in
lemma timestamp_ext (hkeys : t.keys = t'.keys)
    (hvalues : ∀ k, t.values.get? k = t'.values.get? k) : t = t' := by
  obtain ⟨keys, values⟩ := t
  obtain ⟨keys', values'⟩ := t'
  obtain rfl : keys = keys' := hkeys
  exact congrArg (MapTimestamp.mk keys) (SortedMap.ext hvalues)

lemma join_eq_right_iff : Lattice.join t t' = t' ↔
    t.keys.merge t'.keys = t'.keys ∧ ∀ k a, t.values.get? k = some a →
      ∃ b, t'.values.get? k = some b ∧ Lattice.join a b = b := by
  have hext : Lattice.join t t' = t' ↔ t.keys.merge t'.keys = t'.keys ∧
      ∀ k, (Lattice.join t t').values.get? k = t'.values.get? k :=
    ⟨fun h => ⟨congrArg MapTimestamp.keys h, fun k => by rw [h]⟩,
      fun ⟨hkeys, hvalues⟩ => timestamp_ext hkeys hvalues⟩
  rw [hext]
  refine and_congr_right fun _ => forall_congr' fun k => ?_
  rw [get?_join]
  cases t.values.get? k <;> cases t'.values.get? k <;> simp [joined]

instance [CanonicalForm T] : CanonicalForm (MapTimestamp K T) where
  IsCanonical t := t.keys.Canonical ∧ ∀ k v, t.values.get? k = some v → IsCanonical v
  join_self h := join_eq_right_iff.mpr ⟨(merge_eq_right_iff h.1 h.1).mpr fun _ => id,
    fun k a ha => ⟨a, ha, CanonicalForm.join_self (h.2 k a ha)⟩⟩
  join_trans {t a b} ha hb hta hab := by
    obtain ⟨hkeys, hvalues⟩ := join_eq_right_iff.mp hta
    obtain ⟨hkeys', hvalues'⟩ := join_eq_right_iff.mp hab
    refine join_eq_right_iff.mpr ⟨merge_eq_right_trans ha.1 hb.1 hkeys hkeys', fun k x hx => ?_⟩
    obtain ⟨y, hy, hxy⟩ := hvalues k x hx
    obtain ⟨z, hz, hyz⟩ := hvalues' k y hy
    exact ⟨z, hz, CanonicalForm.join_trans (ha.2 k y hy) (hb.2 k z hz) hxy hyz⟩

end

variable {K V D T : Type} [Key K] [CausalTimestamp T D] [DeltaCrdt V D T] [CanonicalForm T]
  [Growing V] {m : OrMap K V} {k : K}

lemma canonical_entryAt (h : IsCanonical (timestamp m)) :
    IsCanonical (DeltaRing.timestamp (m.entryAt k).value) := by
  cases he : m.entries.get? k with
  | none =>
    rw [entryAt_of_get?_eq_none he]
    exact Growing.canonical_initial
  | some e =>
    rw [entryAt_of_get? he]
    exact h.2 k _ (by rw [get?_timestamp, he]; rfl)

omit [Growing V] in
/-- A map grows if one entry changes to a value that has grown. -/
lemma growsTo_timestamp_insert {e : OrMapEntry V} {removals : SortedMap Dot (K × SortedSet Dot)}
    (ds : List Dot) (h : IsCanonical (timestamp m))
    (he : GrowsTo (DeltaRing.timestamp (m.entryAt k).value) (DeltaRing.timestamp e.value)) :
    GrowsTo (timestamp m)
      (timestamp (⟨m.entries.insert k e, removals, m.context.insertAll ds⟩ : OrMap K V)) := by
  have hcontext := growsTo_insertAll h.1 ds
  refine ⟨⟨hcontext.canonical, fun k' t ht => ?_⟩, join_eq_right_iff.mpr ⟨hcontext.join_eq, ?_⟩⟩
  · rw [get?_timestamp] at ht
    by_cases hk : k' = k
    · subst hk
      simp only [SortedMap.get?_insert_self, Option.map_some, Option.some.injEq] at ht
      exact ht ▸ he.canonical
    · rw [SortedMap.get?_insert_of_ne hk, ← get?_timestamp] at ht
      exact h.2 k' t ht
  · intro k' t ht
    have ht' := ht
    rw [get?_timestamp, Option.map_eq_some_iff] at ht
    obtain ⟨e', he', rfl⟩ := ht
    rw [get?_timestamp]
    by_cases hk : k' = k
    · subst hk
      rw [entryAt_of_get? he'] at he
      exact ⟨_, by simp, he.join_eq⟩
    · exact ⟨_, by rw [SortedMap.get?_insert_of_ne hk, he']; rfl,
        CanonicalForm.join_self (h.2 k' _ ht')⟩

instance : Growing (OrMap K V) where
  canonical_initial := ⟨canonical_empty, fun k v hv => by
    change (timestamp (empty : OrMap K V)).values.get? k = some v at hv
    simp [get?_timestamp, empty] at hv⟩
  growsTo_merge {m δ} h := by
    change GrowsTo (timestamp m) (timestamp (m.merge δ).1)
    cases hd : δ.dot? with
    | some d =>
      rcases m.merge_cases hd with ⟨-, hmerge⟩ | ⟨-, e, removals, hvalue, hmerge⟩ <;> rw [hmerge]
      · exact .refl h
      · refine growsTo_timestamp_insert δ.dots h ?_
        rw [hvalue]
        exact .refl (canonical_entryAt h)
    | none =>
      obtain ⟨k, δ, rfl⟩ := OrMapDelta.exists_eq_value hd
      exact growsTo_timestamp_insert [] h (Growing.growsTo_merge (canonical_entryAt h))

instance {O R Kᵥ : Type} [Operable V D O R Kᵥ] [GrowingByOperations V] :
    GrowingByOperations (OrMap K V) where
  growsTo_apply {m a op} h := by
    cases op with
    | mutate k op =>
      exact growsTo_timestamp_insert [m.context.nextDot a] h
        (GrowingByOperations.growsTo_apply (canonical_entryAt h))
    | remove k =>
      change GrowsTo (timestamp m) (timestamp (m.remove (D := D) a k).1)
      rcases m.remove_cases (D := D) a k with hnone | ⟨e, he, hsome⟩
      · rw [hnone]
        exact .refl h
      · rw [hsome]
        refine growsTo_timestamp_insert [m.context.nextDot a] h ?_
        rw [entryAt_of_get? he]
        exact .refl (entryAt_of_get? he ▸ canonical_entryAt h)

end OrMap

/-! ### Families, and types that have codes -/

instance Family.canonicalForm : (F : Family) → CanonicalForm F.Timestamp
  | orSet _ => inferInstanceAs (CanonicalForm CausalContext)
  | registry K _ => inferInstanceAs (CanonicalForm (LwwTimestamp K))
  | orMap K value =>
    have := value.canonicalForm
    inferInstanceAs (CanonicalForm (MapTimestamp K value.Timestamp))

namespace CrdtType

instance canonicalForm : (t : CrdtType) → CanonicalForm t.Timestamp
  | orSet _ => inferInstanceAs (CanonicalForm CausalContext)
  | registry key _ => inferInstanceAs (CanonicalForm (LwwTimestamp key.Carrier))
  | orMap key value =>
    have := value.canonicalForm
    inferInstanceAs (CanonicalForm (MapTimestamp key.Carrier value.Timestamp))

instance growing : (t : CrdtType) → Growing t.State
  | orSet item => inferInstanceAs (Growing (OrSet item.Carrier))
  | registry key value => inferInstanceAs (Growing (LwwRegistry key.Carrier value.Carrier))
  | orMap key value =>
    have := value.growing
    inferInstanceAs (Growing (OrMap key.Carrier value.State))

instance growingByOperations : (t : CrdtType) → GrowingByOperations t.State
  | orSet item => inferInstanceAs (GrowingByOperations (OrSet item.Carrier))
  | registry key value =>
    inferInstanceAs (GrowingByOperations (LwwRegistry key.Carrier value.Carrier))
  | orMap key value =>
    have := value.growingByOperations
    inferInstanceAs (GrowingByOperations (OrMap key.Carrier value.State))

end CrdtType

end DeltaRing
