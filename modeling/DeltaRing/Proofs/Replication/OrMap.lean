import DeltaRing.OrMap
import DeltaRing.Proofs.Causal.Canonical
import DeltaRing.Proofs.Replication.Convergent
import Mathlib.Data.List.Nodup

/-!
Observed-remove maps converge if the values under their keys do.

The presence of keys follows dots that are added and buried, as the items of a set do. What the
deltas of a set say about the value under one key is a set of the value's own deltas, and the value
of the key is the summary of that set, whatever happened to the presence of the key. A key is
tracked as soon as any delta names it.
-/

namespace DeltaRing

variable {K V D T : Type}

namespace OrMapDelta

variable {E X Y : Set (OrMapDelta K D)} {d e r : Dot} {δ ε : OrMapDelta K D} {k k' : K} {δᵥ : D}
  {ts : SortedSet Dot}

/-- The dot that the delta was minted with; the deltas of values have none. -/
def dot? : OrMapDelta K D → Option Dot
  | add _ d => some d
  | remove _ d _ => some d
  | value _ _ => none

/-- The dots that the delta makes known to the presence of keys. -/
def dots : OrMapDelta K D → List Dot
  | add _ d => [d]
  | value _ _ => []
  | remove _ d ts => d :: ts.toList

def Buried (X : Set (OrMapDelta K D)) (d : Dot) : Prop := ∃ k r ts, remove k r ts ∈ X ∧ d ∈ ts

def dotsIn (X : Set (OrMapDelta K D)) : Set Dot := {d | (∃ δ ∈ X, δ.dot? = some d) ∨ Buried X d}

def valueDeltas (X : Set (OrMapDelta K D)) (k : K) : Set D := {δ | value k δ ∈ X}

/-- No dot is used twice, a removal of a key tombstones only what was added to the key, and the
deltas of each value do not contradict each other. -/
structure Consistent [Authored D] (E : Set (OrMapDelta K D)) : Prop where
  counter_pos : ∀ δ ∈ E, ∀ d, δ.dot? = some d → 0 < d.counter
  dot_inj : ∀ δ ∈ E, ∀ ε ∈ E, ∀ d, δ.dot? = some d → ε.dot? = some d → δ = ε
  added : ∀ k r ts, remove k r ts ∈ E → ∀ d ∈ ts, add k d ∈ E
  values : ∀ k, Coherent (valueDeltas E k)

instance [Authored D] : Authored (OrMapDelta K D) where
  author
    | add _ d => d.actor
    | remove _ d _ => d.actor
    | value _ δ => author δ
  Coherent := Consistent

lemma author_of_dot? [Authored D] (h : δ.dot? = some d) : author δ = d.actor := by
  cases δ <;> simp_all [dot?, author]

lemma reflects_of_dot? [Key K] [CausalTimestamp T D] {t : MapTimestamp K T}
    (hd : δ.dot? = some d) : reflects t δ = t.keys.contains d := by
  cases δ <;> cases hd <;> rfl

lemma exists_eq_value (h : δ.dot? = none) : ∃ k ε, δ = value k ε := by
  cases δ with
  | add k d => cases h
  | value k ε => exact ⟨k, ε, rfl⟩
  | remove k r ts => cases h

lemma mem_dotsIn_of_dot? (hδ : δ ∈ X) (h : δ.dot? = some d) : d ∈ dotsIn X := .inl ⟨δ, hδ, h⟩

lemma Buried.mono (h : X ⊆ Y) (hd : Buried X d) : Buried Y d := by
  obtain ⟨k, r, ts, hr, hd⟩ := hd
  exact ⟨k, r, ts, h hr, hd⟩

lemma valueDeltas_mono (h : X ⊆ Y) : valueDeltas X k ⊆ valueDeltas Y k := fun _ hδ => h hδ

/-! ### One more delta -/

lemma buried_insert : Buried (insert δ X) d ↔ Buried {δ} d ∨ Buried X d := by
  simp only [Buried, Set.mem_insert_iff, Set.mem_singleton_iff, or_and_right, exists_or]

lemma not_buried_add : ¬ Buried {(add k e : OrMapDelta K D)} d := by
  rintro ⟨_, _, _, h, -⟩
  cases h

lemma not_buried_value : ¬ Buried {value k δᵥ} d := by
  rintro ⟨_, _, _, h, -⟩
  cases h

lemma buried_remove_iff : Buried {(remove k r ts : OrMapDelta K D)} d ↔ d ∈ ts := by
  constructor
  · rintro ⟨_, _, _, h, hd⟩
    cases h
    exact hd
  · exact fun h => ⟨k, r, ts, rfl, h⟩

lemma mem_dots_iff : d ∈ δ.dots ↔ δ.dot? = some d ∨ Buried {δ} d := by
  cases δ with
  | add k e => simp [dots, dot?, not_buried_add, eq_comm]
  | value k ε => simp [dots, dot?, not_buried_value]
  | remove k r ts => simp [dots, dot?, buried_remove_iff, eq_comm]

lemma mem_dotsIn_insert :
    d ∈ dotsIn (insert δ X) ↔ (δ.dot? = some d ∨ Buried {δ} d) ∨ d ∈ dotsIn X := by
  simp only [dotsIn, Set.mem_ofPred_eq, buried_insert, Set.exists_mem_insert]
  exact or_or_or_comm

lemma dotsIn_union : dotsIn (X ∪ Y) = dotsIn X ∪ dotsIn Y := by
  ext d
  simp only [dotsIn, Buried, Set.mem_ofPred_eq, Set.mem_union, or_and_right, exists_or]
  exact or_or_or_comm

lemma valueDeltas_insert_of_ne (h : δ.key ≠ k) : valueDeltas (insert δ X) k = valueDeltas X k := by
  ext ε
  simp only [valueDeltas, Set.mem_ofPred_eq, Set.mem_insert_iff, or_iff_right_iff_imp]
  rintro rfl
  exact absurd rfl h

lemma valueDeltas_insert_of_dot? (h : δ.dot? = some d) :
    valueDeltas (insert δ X) k = valueDeltas X k := by
  ext ε
  simp only [valueDeltas, Set.mem_ofPred_eq, Set.mem_insert_iff, or_iff_right_iff_imp]
  rintro rfl
  cases h

lemma valueDeltas_insert_value :
    valueDeltas (insert (value k δᵥ) X) k = insert δᵥ (valueDeltas X k) := by
  ext ε
  simp [valueDeltas]

lemma valueDeltas_eq_empty (h : ∀ δ ∈ X, δ.key ≠ k) : valueDeltas X k = ∅ :=
  Set.eq_empty_of_forall_notMem fun δ hδ => h (value k δ) hδ rfl

/-! ### Consistency -/

variable [Authored D]

/-- The merged deltas name the key of a delta of whose dot they know. -/
lemma Consistent.mem_or_buried (hE : Consistent E) (hX : X ⊆ E) (hδ : δ ∈ E)
    (h : δ.dot? = some d) (hd : d ∈ dotsIn X) :
    δ ∈ X ∨ ∃ r ts, δ = add δ.key d ∧ remove δ.key r ts ∈ X ∧ d ∈ ts := by
  rcases hd with ⟨ε, hε, hεd⟩ | ⟨k, r, ts, hr, hd⟩
  · exact .inl (hE.dot_inj δ hδ ε (hX hε) d h hεd ▸ hε)
  · have heq := hE.dot_inj δ hδ _ (hE.added k r ts (hX hr) d hd) d h rfl
    subst heq
    exact .inr ⟨r, ts, rfl, hr, hd⟩

/-- Removals of a key do not bury what was added to other keys. -/
lemma Consistent.key_eq (hE : Consistent E) (hadd : add k d ∈ E) (hr : remove k' r ts ∈ E)
    (hd : d ∈ ts) : k = k' := by
  have := hE.dot_inj _ hadd _ (hE.added k' r ts hr d hd) d rfl rfl
  cases this
  rfl

/-- A fresh dot, with deltas of the value of one key, stays in line with what there was. -/
lemma Consistent.union (hE : Consistent E) {l : List D} (hd : 0 < d.counter)
    (hfresh : ∀ ε ∈ E, ε.dot? ≠ some d) (hδ : δ.dot? = some d)
    (hadded : ∀ r ts, δ = remove δ.key r ts → ∀ e ∈ ts, add δ.key e ∈ E)
    (hl : Coherent (valueDeltas E δ.key ∪ {δ | δ ∈ l})) :
    Consistent (E ∪ {ε | ε ∈ δ :: l.map (value δ.key)}) where
  counter_pos := by
    rintro ε (hε | hε) e he
    · exact hE.counter_pos ε hε e he
    · simp only [Set.mem_ofPred_eq, List.mem_cons, List.mem_map] at hε
      rcases hε with rfl | ⟨_, _, rfl⟩
      · rw [hδ, Option.some.injEq] at he
        exact he ▸ hd
      · cases he
  dot_inj := by
    have hnew : ∀ ε ∈ δ :: l.map (value δ.key), ∀ e, ε.dot? = some e → ε = δ ∧ e = d := by
      intro ε hε e he
      simp only [List.mem_cons, List.mem_map] at hε
      rcases hε with rfl | ⟨_, _, rfl⟩
      · rw [hδ, Option.some.injEq] at he
        exact ⟨rfl, he.symm⟩
      · cases he
    rintro ε (hε | hε) ζ (hζ | hζ) e hεd hζd
    · exact hE.dot_inj ε hε ζ hζ e hεd hζd
    · obtain ⟨-, rfl⟩ := hnew ζ hζ e hζd
      exact absurd hεd (hfresh ε hε)
    · obtain ⟨-, rfl⟩ := hnew ε hε e hεd
      exact absurd hζd (hfresh ζ hζ)
    · rw [(hnew ε hε e hεd).1, (hnew ζ hζ e hζd).1]
  added := by
    rintro k r ts (hr | hr) e he
    · exact .inl (hE.added k r ts hr e he)
    · simp only [Set.mem_ofPred_eq, List.mem_cons, List.mem_map, reduceCtorEq, and_false,
        exists_false, or_false] at hr
      subst hr
      exact .inl (hadded r ts rfl e he)
  values := by
    intro k
    by_cases hk : k = δ.key
    · subst hk
      convert hl using 1
      ext ε
      have : value δ.key ε ≠ δ := by
        rintro h
        rw [← h] at hδ
        cases hδ
      simp [valueDeltas, this]
    · convert hE.values k using 1
      ext ε
      have : value k ε ≠ δ := by
        rintro rfl
        exact hk rfl
      simp [valueDeltas, this, Ne.symm hk]

end OrMapDelta

open OrMapDelta

namespace OrMap

variable [Key K] [DeltaCrdt V D T] {E X Y : Set (OrMapDelta K D)} {m m' u : OrMap K V} {k k' : K}
  {d r : Dot} {δ : OrMapDelta K D} {e : OrMapEntry V}

/-- The entry of a key, which is hidden with the initial value where the key is not tracked. -/
def entryAt (m : OrMap K V) (k : K) : OrMapEntry V := entryOr (m.entries.get? k)

lemma entryAt_of_get? (h : m.entries.get? k = some e) : m.entryAt k = e := by
  simp [entryAt, entryOr, h]

lemma entryAt_of_get?_eq_none (h : m.entries.get? k = none) : m.entryAt k = ⟨.empty, initial⟩ := by
  simp [entryAt, entryOr, h]

lemma get?_timestamp : (timestamp m).values.get? k =
    (m.entries.get? k).map fun e => DeltaRing.timestamp e.value := SortedMap.get?_map _

lemma reflects_value [CausalTimestamp T D] {t : MapTimestamp K T} {δ : D} :
    reflects t (.value k δ : OrMapDelta K D) = true ↔
      ∃ tᵥ, t.values.get? k = some tᵥ ∧ reflects tᵥ δ = true := by
  change (t.values.get? k).any _ = true ↔ _
  cases t.values.get? k <;> simp

lemma reflects_value_iff [CausalTimestamp T D] {δ : D} :
    reflects (timestamp m) (.value k δ : OrMapDelta K D) = true ↔
      ∃ e, m.entries.get? k = some e ∧ reflects (DeltaRing.timestamp e.value) δ = true := by
  change ((timestamp m).values.get? k).any _ = true ↔ _
  rw [get?_timestamp]
  cases m.entries.get? k <;> simp

lemma entryAt_insert_self {removals : SortedMap Dot (K × SortedSet Dot)} {c : CausalContext} :
    (⟨m.entries.insert k e, removals, c⟩ : OrMap K V).entryAt k = e := by
  simp [entryAt, entryOr]

lemma entryAt_insert_of_ne (hk : k' ≠ k) {removals : SortedMap Dot (K × SortedSet Dot)}
    {c : CausalContext} :
    (⟨m.entries.insert k e, removals, c⟩ : OrMap K V).entryAt k' = m.entryAt k' := by
  simp [entryAt, SortedMap.get?_insert_of_ne hk]

/-- A delta with a dot changes nothing where the dot is known. Elsewhere it changes the dots of its
key, which is tracked from then on, and leaves the value of the key as it is. -/
lemma merge_cases (m : OrMap K V) (hd : δ.dot? = some d) :
    m.context.contains d = true ∧ m.merge δ = (m, .unchanged) ∨
    m.context.contains d = false ∧ ∃ e removals, e.value = (m.entryAt δ.key).value ∧ m.merge δ =
      (⟨m.entries.insert δ.key e, removals, m.context.insertAll δ.dots⟩, .updated) := by
  cases hknown : m.context.contains d with
  | true =>
    refine .inl ⟨rfl, ?_⟩
    cases δ <;> cases hd <;> exact if_pos hknown
  | false =>
    refine .inr ⟨rfl, ?_⟩
    cases δ with
    | add k e =>
      cases hd
      refine ⟨{ m.entryAt k with dots := (m.entryAt k).dots.insert d }, m.removals, rfl, ?_⟩
      rw [OrMap.merge, if_neg (by simp [hknown])]
      simp only [SortedMap.alter_eq_insert]
      rfl
    | remove k r ts =>
      cases hd
      refine ⟨{ m.entryAt k with dots := (m.entryAt k).dots.diff ts }, m.removals.insert d (k, ts),
        rfl, ?_⟩
      rw [OrMap.merge, if_neg (by simp [hknown])]
      simp only [SortedMap.alter_eq_insert]
      rfl
    | value k ε => cases hd

lemma mem_deltasSince {since : Option (MapTimestamp K T)} : δ ∈ m.deltasSince since ↔
    match δ with
    | .add k d => (∀ t ∈ since, t.keys.contains d = false) ∧ d ∈ (m.entryAt k).dots
    | .remove k r ts =>
      (∀ t ∈ since, t.keys.contains r = false) ∧ m.removals.get? r = some (k, ts)
    | .value k δ => ∃ e, m.entries.get? k = some e ∧
      δ ∈ DeltaRing.deltasSince e.value (since.bind fun t => t.values.get? k) := by
  have hunseen : ∀ d : Dot, (!since.any fun t => t.keys.contains d) = true ↔
      ∀ t ∈ since, t.keys.contains d = false := by
    cases since <;> simp
  unfold deltasSince
  simp only [List.mem_append, List.mem_filterMap, List.mem_flatMap, List.mem_map,
    List.mem_filter, hunseen, SortedSet.mem_toList, Prod.exists, Option.ite_none_right_eq_some,
    Option.some.injEq, SortedMap.mem_entries_iff]
  cases δ with
  | add k d =>
    simp only [reduceCtorEq, and_false, exists_false, false_or, or_false, OrMapDelta.add.injEq]
    constructor
    · rintro ⟨_, e, he, _, ⟨hd, hc⟩, rfl, rfl⟩
      exact ⟨hc, by rwa [entryAt_of_get? he]⟩
    · rintro ⟨hc, hd⟩
      cases he : m.entries.get? k with
      | none => simp [entryAt_of_get?_eq_none he] at hd
      | some e => exact ⟨k, e, he, d, ⟨by rwa [entryAt_of_get? he] at hd, hc⟩, rfl, rfl⟩
  | remove k r ts =>
    simp only [reduceCtorEq, and_false, exists_false, or_false, OrMapDelta.remove.injEq]
    constructor
    · rintro ⟨_, _, _, hts, hc, rfl, rfl, rfl⟩
      exact ⟨hc, hts⟩
    · rintro ⟨hc, hts⟩
      exact ⟨r, k, ts, hts, hc, rfl, rfl, rfl⟩
  | value k δ =>
    simp only [reduceCtorEq, and_false, exists_false, false_or, OrMapDelta.value.injEq]
    constructor
    · rintro ⟨_, e, he, _, hδ, rfl, rfl⟩
      exact ⟨e, he, hδ⟩
    · rintro ⟨e, he, hδ⟩
      exact ⟨k, e, he, δ, hδ, rfl, rfl⟩

def joined [Lattice T] (theirs : T) : Option T → T
  | some mine => Lattice.join mine theirs
  | none => theirs

lemma get?_join [Lattice T] {t t' : MapTimestamp K T} : (Lattice.join t t').values.get? k =
    (t'.values.get? k).elim (t.values.get? k) fun theirs =>
      some (joined theirs (t.values.get? k)) :=
  SortedMap.get?_foldl_alter joined t.values t'.values

/-- The state that a set of deltas amounts to. -/
structure IsSummary [Summary V D] (m : OrMap K V) (X : Set (OrMapDelta K D)) : Prop where
  tracked : ∀ k, (m.entries.get? k).isSome ↔ ∃ δ ∈ X, δ.key = k
  mem_dots : ∀ k d, d ∈ (m.entryAt k).dots ↔ .add k d ∈ X ∧ ¬ Buried X d
  value : ∀ k, Summarizes (m.entryAt k).value (valueDeltas X k)
  removals : ∀ r k ts, m.removals.get? r = some (k, ts) ↔ .remove k r ts ∈ X
  context : m.context.Represents (dotsIn X)

variable [Summary V D]

instance : Summary (OrMap K V) (OrMapDelta K D) := ⟨IsSummary⟩

lemma IsSummary.get?_eq_none_iff (h : m.IsSummary X) :
    m.entries.get? k = none ↔ ∀ δ ∈ X, δ.key ≠ k := by
  rw [← Option.isNone_iff_eq_none, ← Option.isSome_eq_false_iff, ← Bool.not_eq_true, h.tracked]
  push Not
  rfl

/-- A key is present while one of its dots is live. -/
lemma IsSummary.isSome_get?_iff (h : m.IsSummary X) :
    (m.get? k).isSome ↔ ∃ d, .add k d ∈ X ∧ ¬ Buried X d := by
  simp only [← h.mem_dots]
  rw [OrMap.get?, Option.isSome_map]
  cases he : m.entries.get? k with
  | none => simp [entryAt_of_get?_eq_none he]
  | some e =>
    rw [entryAt_of_get? he]
    constructor
    · intro hsome
      refine SortedSet.exists_mem_of_ne_empty fun hempty => ?_
      simp [hempty, Option.filter] at hsome
    · rintro ⟨d, hd⟩
      have : e.dots ≠ .empty := by
        intro hempty
        simp [hempty] at hd
      simp [Option.filter, this]

variable [Authored D]

lemma IsSummary.contains_iff (hE : Consistent E) (hδ : δ ∈ E) (hd : δ.dot? = some d)
    (h : m.IsSummary X) : m.context.contains d = true ↔ d ∈ dotsIn X :=
  h.context.contains_iff d (hE.counter_pos δ hδ d hd)

/-! ### Merging -/

/-- A delta tells only about its own key. -/
lemma IsSummary.update (hE : Consistent E) (hX : X ⊆ E) (hδ : δ ∈ E) (h : m.IsSummary X)
    {removals : SortedMap Dot (K × SortedSet Dot)} {c : CausalContext}
    (hdots : ∀ d, d ∈ e.dots ↔ .add δ.key d ∈ insert δ X ∧ ¬ Buried (insert δ X) d)
    (hvalue : Summarizes e.value (valueDeltas (insert δ X) δ.key))
    (hremovals : ∀ r k ts, removals.get? r = some (k, ts) ↔ .remove k r ts ∈ insert δ X)
    (hcontext : c.Represents (dotsIn (insert δ X))) :
    (⟨m.entries.insert δ.key e, removals, c⟩ : OrMap K V).IsSummary (insert δ X) := by
  refine ⟨fun k => ?_, fun k d => ?_, fun k => ?_, hremovals, hcontext⟩
  · by_cases hk : k = δ.key
    · subst hk
      simp
    · simp [SortedMap.get?_insert_of_ne hk, h.tracked, Ne.symm hk]
  · by_cases hk : k = δ.key
    · subst hk
      rw [entryAt_insert_self, hdots]
    · rw [entryAt_insert_of_ne hk, h.mem_dots, buried_insert, Set.mem_insert_iff]
      constructor
      · rintro ⟨hadd, hlive⟩
        refine ⟨.inr hadd, fun hb => hb.elim ?_ hlive⟩
        rintro ⟨k', r, ts, rfl, hd⟩
        exact hk (hE.key_eq (hX hadd) hδ hd)
      · rintro ⟨rfl | hadd, hlive⟩
        · exact absurd rfl hk
        · exact ⟨hadd, fun hb => hlive (.inr hb)⟩
  · by_cases hk : k = δ.key
    · subst hk
      rwa [entryAt_insert_self]
    · rw [entryAt_insert_of_ne hk, valueDeltas_insert_of_ne (Ne.symm hk)]
      exact h.value k

/-- A dot that is known brings nothing new. -/
lemma IsSummary.insert_of_contains (hE : Consistent E) (hX : X ⊆ E) (hδ : δ ∈ E)
    (h : m.IsSummary X) (hd : δ.dot? = some d) (hknown : m.context.contains d = true) :
    m.IsSummary (insert δ X) := by
  have hdot := (h.contains_iff hE hδ hd).mp hknown
  rcases hE.mem_or_buried hX hδ hd hdot with hmem | ⟨r, ts, heq, hr, hdts⟩
  · rwa [Set.insert_eq_of_mem hmem]
  · generalize δ.key = k at heq hr
    subst heq
    have hb : Buried X d := ⟨k, r, ts, hr, hdts⟩
    refine ⟨fun k' => ?_, fun k' e => ?_, fun k' => ?_, fun r' k' ts' => ?_,
      h.context.congr fun e => ?_⟩
    · rw [h.tracked, Set.exists_mem_insert]
      -- the removal that buries the dot names the key as well
      exact ⟨.inr, fun hk => hk.elim (fun hk => ⟨_, hr, hk⟩) id⟩
    · rw [h.mem_dots, buried_insert, Set.mem_insert_iff, OrMapDelta.add.injEq]
      constructor
      · exact fun ⟨hadd, hlive⟩ => ⟨.inr hadd, fun hb => hb.elim not_buried_add hlive⟩
      · rintro ⟨⟨rfl, rfl⟩ | hadd, hlive⟩
        · exact absurd (.inr hb) hlive
        · exact ⟨hadd, fun hb => hlive (.inr hb)⟩
    · rw [valueDeltas_insert_of_dot? (d := d) rfl]
      exact h.value k'
    · rw [h.removals]
      simp
    · rw [mem_dotsIn_insert, dot?, Option.some.injEq]
      constructor
      · exact .inr
      · rintro ((rfl | hb) | he)
        · exact hdot
        · exact absurd hb not_buried_add
        · exact he

lemma IsSummary.merge_add (hE : Consistent E) (hX : X ⊆ E) (hδ : .add k d ∈ E)
    (h : m.IsSummary X) : (m.merge (.add k d)).1.IsSummary (insert (.add k d) X) := by
  rw [OrMap.merge]
  split
  · rename_i hknown
    exact h.insert_of_contains hE hX hδ rfl hknown
  · rename_i hnew
    rw [h.contains_iff hE hδ rfl] at hnew
    simp only
    rw [SortedMap.alter_eq_insert, ← entryAt]
    refine h.update hE hX hδ (fun e => ?_) ?_ (fun r k' ts => ?_) ?_
    · -- the new dot is not buried, for it would be known
      have hd : ¬ Buried X d := fun hb => hnew (.inr hb)
      rw [SortedSet.mem_insert, key, h.mem_dots, Set.mem_insert_iff, OrMapDelta.add.injEq,
        buried_insert]
      constructor
      · rintro (rfl | ⟨hadd, hlive⟩)
        · exact ⟨.inl ⟨rfl, rfl⟩, fun hb => hb.elim not_buried_add hd⟩
        · exact ⟨.inr hadd, fun hb => hb.elim not_buried_add hlive⟩
      · rintro ⟨⟨-, rfl⟩ | hadd, hlive⟩
        · exact .inl rfl
        · exact .inr ⟨hadd, fun hb => hlive (.inr hb)⟩
    · rw [valueDeltas_insert_of_dot? (d := d) rfl]
      exact h.value k
    · rw [h.removals]
      simp
    · refine (h.context.insertAll [d]).congr fun e => ?_
      rw [mem_dotsIn_insert, dot?, Option.some.injEq]
      simp only [not_buried_add, or_false, Set.mem_union, Set.mem_ofPred_eq, List.mem_singleton]
      rw [or_comm, eq_comm]

lemma IsSummary.merge_remove {ts : SortedSet Dot} (hE : Consistent E) (hX : X ⊆ E)
    (hδ : .remove k r ts ∈ E) (h : m.IsSummary X) :
    (m.merge (.remove k r ts)).1.IsSummary (insert (.remove k r ts) X) := by
  rw [OrMap.merge]
  split
  · rename_i hknown
    exact h.insert_of_contains hE hX hδ rfl hknown
  · rename_i hnew
    rw [h.contains_iff hE hδ rfl] at hnew
    simp only
    rw [SortedMap.alter_eq_insert, ← entryAt]
    refine h.update hE hX hδ (fun e => ?_) ?_ (fun r' k' ts' => ?_) ?_
    · rw [SortedSet.mem_diff, key, h.mem_dots, Set.mem_insert_iff, buried_insert,
        buried_remove_iff]
      simp only [reduceCtorEq, false_or]
      tauto
    · rw [valueDeltas_insert_of_dot? (d := r) rfl]
      exact h.value k
    · rw [Set.mem_insert_iff, OrMapDelta.remove.injEq]
      by_cases hr : r' = r
      · subst hr
        have hout : .remove k' r' ts' ∉ X := fun hmem => hnew (mem_dotsIn_of_dot? hmem rfl)
        rw [SortedMap.get?_insert_self, Option.some.injEq, Prod.mk.injEq]
        simp [hout, eq_comm]
      · rw [SortedMap.get?_insert_of_ne hr, h.removals]
        simp [hr]
    · refine (h.context.insertAll (r :: ts.toList)).congr fun e => ?_
      rw [mem_dotsIn_insert, dot?, Option.some.injEq, buried_remove_iff]
      simp only [Set.mem_union, Set.mem_ofPred_eq, List.mem_cons, SortedSet.mem_toList]
      rw [or_comm, eq_comm]

variable [CausalTimestamp T D] [laws : Convergent V]

lemma IsSummary.eq (hE : Consistent E) (hX : X ⊆ E) (h : m.IsSummary X) (h' : m'.IsSummary X) :
    m = m' := by
  have hat : ∀ k, m.entryAt k = m'.entryAt k := by
    intro k
    have hdots : (m.entryAt k).dots = (m'.entryAt k).dots := by
      ext d
      rw [h.mem_dots, h'.mem_dots]
    have hvalue := Convergent.summarizes_unique (hE.values k) (valueDeltas_mono hX) (h.value k)
      (h'.value k)
    cases hm : m.entryAt k
    cases hm' : m'.entryAt k
    rw [hm, hm'] at hdots hvalue
    rw [OrMapEntry.mk.injEq]
    exact ⟨hdots, hvalue⟩
  have hentries : m.entries = m'.entries := by
    ext k : 1
    have htracked : (m.entries.get? k).isSome ↔ (m'.entries.get? k).isSome := by
      rw [h.tracked, h'.tracked]
    have hk := hat k
    cases hm : m.entries.get? k with
    | none =>
      cases hm' : m'.entries.get? k with
      | none => rfl
      | some e' => simp [hm, hm'] at htracked
    | some e =>
      cases hm' : m'.entries.get? k with
      | none => simp [hm, hm'] at htracked
      | some e' => rw [← entryAt_of_get? hm, ← entryAt_of_get? hm', hk]
  have hremovals : m.removals = m'.removals := by
    ext r ⟨k, ts⟩
    rw [h.removals, h'.removals]
  have hcontext : m.context = m'.context := h.context.eq h'.context
  obtain ⟨_, _, _⟩ := m
  obtain ⟨_, _, _⟩ := m'
  simp only at hentries hremovals hcontext
  rw [hentries, hremovals, hcontext]

lemma isSummary_empty : (empty : OrMap K V).IsSummary (∅ : Set (OrMapDelta K D)) where
  tracked k := by simp [empty]
  mem_dots k d := by simp [empty, entryAt, entryOr]
  value k := by
    simpa [empty, entryAt, entryOr, valueDeltas] using Convergent.summarizes_initial
  removals r k ts := by simp [empty]
  context := CausalContext.represents_empty.congr fun d => by simp [dotsIn, Buried]

lemma IsSummary.merge_value {δ : D} (hE : Consistent E) (hX : X ⊆ E) (hδ : .value k δ ∈ E)
    (h : m.IsSummary X) : (m.merge (.value k δ)).1.IsSummary (insert (.value k δ) X) := by
  rw [OrMap.merge, ← entryAt]
  refine h.update hE hX hδ (fun d => ?_) ?_ (fun r k' ts => ?_) ?_
  · rw [key, h.mem_dots, buried_insert]
    simp [not_buried_value]
  · rw [key, valueDeltas_insert_value]
    exact Convergent.summarizes_merge (hE.values k) (valueDeltas_mono hX) hδ (h.value k)
  · rw [h.removals]
    simp
  · refine h.context.congr fun d => ?_
    rw [mem_dotsIn_insert]
    simp [not_buried_value, dot?]

lemma IsSummary.merge (hE : Consistent E) (hX : X ⊆ E) (hδ : δ ∈ E) (h : m.IsSummary X) :
    (m.merge δ).1.IsSummary (insert δ X) := by
  cases δ with
  | add k d => exact h.merge_add hE hX hδ
  | remove k r ts => exact h.merge_remove hE hX hδ
  | value k δ => exact h.merge_value hE hX hδ

/-! ### Timestamps -/

omit [Authored D] [Summary V D] [Convergent V] in
/-- What is reflected changes nothing, if that is so of the values. -/
lemma merge_of_reflects (hvalues : ∀ {v : V} {δ : D}, reflects (DeltaRing.timestamp v) δ = true →
    DeltaRing.merge v δ = (v, .unchanged)) (h : reflects (timestamp m) δ = true) :
    m.merge δ = (m, .unchanged) := by
  cases hd : δ.dot? with
  | some d =>
    rw [reflects_of_dot? hd] at h
    rcases m.merge_cases hd with ⟨-, hmerge⟩ | ⟨hnew, -⟩
    · exact hmerge
    · cases hnew.symm.trans h
  | none =>
    obtain ⟨k, δ, rfl⟩ := exists_eq_value hd
    obtain ⟨e, he, hr⟩ := reflects_value_iff.mp h
    rw [OrMap.merge, ← entryAt, entryAt_of_get? he, hvalues hr]
    simp only [SortedMap.insert_of_get? he]

lemma IsSummary.reflects_of_mem (hE : Consistent E) (hX : X ⊆ E) (h : m.IsSummary X)
    (hδ : δ ∈ X) : reflects (timestamp m) δ = true := by
  cases hd : δ.dot? with
  | some d =>
    rw [reflects_of_dot? hd]
    exact (h.contains_iff hE (hX hδ) hd).mpr (mem_dotsIn_of_dot? hδ hd)
  | none =>
    obtain ⟨k, δ, rfl⟩ := exists_eq_value hd
    obtain ⟨e, he⟩ := Option.isSome_iff_exists.mp ((h.tracked k).mpr ⟨_, hδ, rfl⟩)
    refine reflects_value_iff.mpr ⟨e, he, ?_⟩
    rw [← entryAt_of_get? he]
    exact Convergent.reflects_of_mem (hE.values k) (valueDeltas_mono hX) (h.value k) hδ

/-! ### Listing what another lacks -/

lemma IsSummary.mem_of_mem_deltasSince (h : m.IsSummary X) {since : Option (MapTimestamp K T)}
    (hδ : δ ∈ m.deltasSince since) : δ ∈ X := by
  have hδ := mem_deltasSince.mp hδ
  cases δ with
  | add k d => exact ((h.mem_dots k d).mp hδ.2).1
  | remove k r ts => exact (h.removals r k ts).mp hδ.2
  | value k δ =>
    obtain ⟨e, he, hδ⟩ := hδ
    have hvalue := h.value k
    rw [entryAt_of_get? he] at hvalue
    have hinner : δ ∈ valueDeltas X k := Convergent.mem_of_mem_deltasSince hvalue hδ
    exact hinner

omit laws in
/-- A buried addition is not listed, but a removal that buries it is, or is reflected. -/
lemma IsSummary.contains_of_deltasSince (hE : Consistent E) (hX : X ⊆ E) (hY : Y ⊆ E)
    (h : m.IsSummary X) (hu : u.IsSummary Y) {since : Option (MapTimestamp K T)}
    (hsince : ∀ t ∈ since, ∀ δ ∈ E, reflects t δ = true → reflects (timestamp u) δ = true)
    (hlisted : ∀ δ ∈ m.deltasSince since, δ ∈ Y) (hδ : δ ∈ X) (hd : δ.dot? = some d) :
    u.context.contains d = true := by
  have hknown : d ∈ dotsIn Y → u.context.contains d = true := (hu.contains_iff hE (hX hδ) hd).mpr
  by_cases hseen : ∀ t ∈ since, t.keys.contains d = false
  · cases δ with
    | value k δ => cases hd
    | remove k r ts =>
      cases hd
      have hmem := hlisted (.remove k d ts)
        (mem_deltasSince.mpr ⟨hseen, (h.removals d k ts).mpr hδ⟩)
      exact hknown (mem_dotsIn_of_dot? hmem rfl)
    | add k d' =>
      cases hd
      by_cases hb : Buried X d
      · obtain ⟨k', r, ts, hr, hdts⟩ := hb
        have hrY : .remove k' r ts ∈ Y := by
          by_cases hseen' : ∀ t ∈ since, t.keys.contains r = false
          · exact hlisted (.remove k' r ts)
              (mem_deltasSince.mpr ⟨hseen', (h.removals r k' ts).mpr hr⟩)
          · push Not at hseen'
            obtain ⟨t, ht, htr⟩ := hseen'
            have hur : u.context.contains r = true :=
              hsince t ht _ (hX hr) (by simpa [reflects] using htr)
            have hrdots := (hu.contains_iff hE (hX hr) rfl).mp hur
            rcases hE.mem_or_buried hY (hX hr) rfl hrdots with hmem | ⟨_, _, hadd, -⟩
            · exact hmem
            · cases hadd
        exact hknown (.inr ⟨k', r, ts, hrY, hdts⟩)
      · have hmem := hlisted (.add k d)
          (mem_deltasSince.mpr ⟨hseen, (h.mem_dots k d).mpr ⟨hδ, hb⟩⟩)
        exact hknown (mem_dotsIn_of_dot? hmem rfl)
  · push Not at hseen
    obtain ⟨t, ht, htd⟩ := hseen
    have := hsince t ht δ (hX hδ) (by simpa [reflects_of_dot? hd] using htd)
    rwa [reflects_of_dot? hd] at this

/-- The value of every key is handed on as a replica of its own would be. -/
lemma IsSummary.reflects_value_of_deltasSince {δ : D} (hE : Consistent E) (hX : X ⊆ E)
    (hY : Y ⊆ E) (h : m.IsSummary X) (hu : u.IsSummary Y) {since : Option (MapTimestamp K T)}
    (hsince : ∀ t ∈ since, ∀ δ ∈ E, reflects t δ = true → reflects (timestamp u) δ = true)
    (hlisted : ∀ δ ∈ m.deltasSince since, δ ∈ Y) (hδ : .value k δ ∈ X) :
    reflects (timestamp u) (.value k δ : OrMapDelta K D) = true := by
  obtain ⟨e, he⟩ := Option.isSome_iff_exists.mp ((h.tracked k).mpr ⟨_, hδ, rfl⟩)
  have hvalue := h.value k
  rw [entryAt_of_get? he] at hvalue
  have hsinceᵥ : ∀ t ∈ since.bind fun t => t.values.get? k, ∀ ε ∈ valueDeltas E k,
      reflects t ε = true → reflects (DeltaRing.timestamp (u.entryAt k).value) ε = true := by
    intro tᵥ htᵥ ε hε hr
    obtain ⟨t, ht, htᵥ⟩ := Option.bind_eq_some_iff.mp htᵥ
    have hseen : reflects t (.value k ε : OrMapDelta K D) = true := by
      change (t.values.get? k).any _ = true
      rw [htᵥ]
      exact hr
    obtain ⟨e', he', hr'⟩ := reflects_value_iff.mp (hsince t ht _ hε hseen)
    rwa [entryAt_of_get? he']
  have hinner : reflects (DeltaRing.timestamp (u.entryAt k).value) δ = true :=
    Convergent.reflects_of_deltasSince (hE.values k) (valueDeltas_mono hX) (valueDeltas_mono hY)
      hvalue (hu.value k) hsinceᵥ (fun ε hε => hlisted _ (mem_deltasSince.mpr ⟨e, he, hε⟩)) hδ
  refine reflects_value_iff.mpr ?_
  cases hk : u.entries.get? k with
  | none =>
    -- a key that is not tracked has the initial value, which reflects nothing
    rw [entryAt_of_get?_eq_none hk, Convergent.not_reflects_initial (hE.values k) (hX hδ)] at hinner
    cases hinner
  | some e' =>
    rw [entryAt_of_get? hk] at hinner
    exact ⟨e', rfl, hinner⟩

lemma IsSummary.reflects_of_deltasSince (hE : Consistent E) (hX : X ⊆ E) (hY : Y ⊆ E)
    (h : m.IsSummary X) (hu : u.IsSummary Y) {since : Option (MapTimestamp K T)}
    (hsince : ∀ t ∈ since, ∀ δ ∈ E, reflects t δ = true → reflects (timestamp u) δ = true)
    (hlisted : ∀ δ ∈ m.deltasSince since, δ ∈ Y) (hδ : δ ∈ X) :
    reflects (timestamp u) δ = true := by
  cases hd : δ.dot? with
  | some d =>
    rw [reflects_of_dot? hd]
    exact h.contains_of_deltasSince hE hX hY hu hsince hlisted hδ hd
  | none =>
    obtain ⟨k, δ, rfl⟩ := exists_eq_value hd
    exact h.reflects_value_of_deltasSince hE hX hY hu hsince hlisted hδ

/-! ### Joining timestamps -/

/-- The deltas of one side say all there is about a key that the other side does not track. -/
lemma IsSummary.value_eq (hE : Consistent E) (hX : X ⊆ E) (h : m.IsSummary X)
    (hu : u.IsSummary (X ∪ Y)) (hY : ∀ δ ∈ Y, δ.key ≠ k) :
    (u.entryAt k).value = (m.entryAt k).value := by
  have hinner : valueDeltas (X ∪ Y) k = valueDeltas X k := by
    have : valueDeltas (X ∪ Y) k = valueDeltas X k ∪ valueDeltas Y k := rfl
    rw [this, valueDeltas_eq_empty hY, Set.union_empty]
  refine Convergent.summarizes_unique (hE.values k) (valueDeltas_mono hX) ?_ (h.value k)
  rw [← hinner]
  exact hu.value k

lemma IsSummary.timestamp_union (hE : Consistent E) (hX : X ⊆ E) (hY : Y ⊆ E)
    (h : m.IsSummary X) (h' : m'.IsSummary Y) (hu : u.IsSummary (X ∪ Y)) :
    timestamp u = Lattice.join (timestamp m) (timestamp m') := by
  have hkeys : u.context = m.context.merge m'.context :=
    hu.context.eq ((h.context.merge h'.context).congr fun d => by rw [dotsIn_union])
  have hvalues : (timestamp u).values
      = (Lattice.join (timestamp m) (timestamp m') : MapTimestamp K T).values := by
    ext k : 1
    rw [get?_join, get?_timestamp, get?_timestamp, get?_timestamp]
    have htracked : (u.entries.get? k).isSome ↔
        (m.entries.get? k).isSome ∨ (m'.entries.get? k).isSome := by
      rw [hu.tracked, h.tracked, h'.tracked]
      simp only [Set.mem_union, or_and_right, exists_or]
    cases hm : m.entries.get? k with
    | none =>
      have hXk := h.get?_eq_none_iff.mp hm
      cases hm' : m'.entries.get? k with
      | none =>
        simp only [hm, hm', Option.isSome_none, Bool.false_eq_true, or_self, iff_false,
          Option.not_isSome_iff_eq_none] at htracked
        simp [htracked]
      | some e' =>
        obtain ⟨eᵤ, heᵤ⟩ := Option.isSome_iff_exists.mp (htracked.mpr (by simp [hm']))
        have hvalue := h'.value_eq hE hY (Set.union_comm X Y ▸ hu) hXk
        rw [entryAt_of_get? heᵤ, entryAt_of_get? hm'] at hvalue
        simp [heᵤ, joined, hvalue]
    | some e =>
      obtain ⟨eᵤ, heᵤ⟩ := Option.isSome_iff_exists.mp (htracked.mpr (by simp [hm]))
      cases hm' : m'.entries.get? k with
      | none =>
        have hvalue := h.value_eq hE hX hu (h'.get?_eq_none_iff.mp hm')
        rw [entryAt_of_get? heᵤ, entryAt_of_get? hm] at hvalue
        simp [heᵤ, hvalue]
      | some e' =>
        have hjoin := Convergent.timestamp_union (hE.values k) (valueDeltas_mono hX)
          (valueDeltas_mono hY) (h.value k) (h'.value k) (hu.value k)
        rw [entryAt_of_get? heᵤ, entryAt_of_get? hm, entryAt_of_get? hm'] at hjoin
        simp [heᵤ, joined, hjoin]
  change (⟨u.context, (timestamp u).values⟩ : MapTimestamp K T) = _
  rw [hkeys, hvalues]
  rfl

/-! ### Operations -/

omit laws [CausalTimestamp T D] in
/-- An actor that knows its own deltas mints a dot that no delta has. -/
lemma IsSummary.dot_ne_nextDot (hE : Consistent E) (h : m.IsSummary X) {a : Actor}
    (hown : ∀ δ ∈ E, author δ = a → δ ∈ X) : ∀ δ ∈ E, δ.dot? ≠ some (m.context.nextDot a) := by
  intro δ hδ hd
  have ha : author δ = a := author_of_dot? hd
  have := (h.contains_iff hE hδ hd).mpr (mem_dotsIn_of_dot? (hown δ hδ ha) hd)
  rw [CausalContext.not_contains_nextDot] at this
  cases this

omit laws [CausalTimestamp T D] [Authored D] [Summary V D] in
/-- The deltas of the value of a key that is tracked change this value only. -/
lemma mergeAll_map_value {l : List D} (he : m.entries.get? k = some e) :
    (mergeAll m (l.map (.value k))).1 =
      { m with entries := m.entries.insert k { e with value := (mergeAll e.value l).1 } } := by
  induction l generalizing m e with
  | nil => simp [SortedMap.insert_of_get? he]
  | cons δ l ih =>
    have hmerge : (DeltaRing.merge m (.value k δ)).1 = { m with
        entries := m.entries.insert k { e with value := (DeltaRing.merge e.value δ).1 } } := by
      change (OrMap.merge m (.value k δ)).1 = _
      rw [OrMap.merge, ← entryAt, entryAt_of_get? he]
    rw [List.map_cons, mergeAll_cons, mergeAll_cons, hmerge]
    have := ih (m := { m with
        entries := m.entries.insert k { e with value := (DeltaRing.merge e.value δ).1 } })
      SortedMap.get?_insert_self
    rw [this, SortedMap.insert_insert]

omit laws [CausalTimestamp T D] [Authored D] [Summary V D] in
/-- A fresh dot enters under its key, and then the deltas of the value. -/
lemma mergeAll_add_map_value {a : Actor} {l : List D} :
    (mergeAll m (.add k (m.context.nextDot a) :: l.map (.value k))).1 =
      ⟨m.entries.insert k ⟨(m.entryAt k).dots.insert (m.context.nextDot a),
          (mergeAll (m.entryAt k).value l).1⟩,
        m.removals, m.context.insert (m.context.nextDot a)⟩ := by
  have hadd : (DeltaRing.merge m (.add k (m.context.nextDot a))).1 = ⟨m.entries.insert k
      { m.entryAt k with dots := (m.entryAt k).dots.insert (m.context.nextDot a) },
      m.removals, m.context.insert (m.context.nextDot a)⟩ := by
    change (OrMap.merge m (.add k (m.context.nextDot a))).1 = _
    rw [OrMap.merge, if_neg (by simp [CausalContext.not_contains_nextDot])]
    simp only
    rw [SortedMap.alter_eq_insert]
    rfl
  rw [mergeAll_cons, hadd, mergeAll_map_value SortedMap.get?_insert_self, SortedMap.insert_insert]

omit laws [CausalTimestamp T D] in
/-- A mutation hands out a dot of the key and what the change of the value hands out. -/
lemma IsSummary.handsOut_mutate (hE : Consistent E) (h : m.IsSummary X) {a : Actor}
    (hown : ∀ δ ∈ E, author δ = a → δ ∈ X) {R : Type} {f : V → V × R × List D}
    (hvalue : HandsOut (valueDeltas E k) a (m.entryAt k).value (f (m.entryAt k).value).1
      (f (m.entryAt k).value).2.2) :
    HandsOut E a m (m.mutate a k f).1 (m.mutate a k f).2.2 := by
  have hfresh := h.dot_ne_nextDot hE hown
  change HandsOut E a m
    ⟨m.entries.insert k ⟨(m.entryAt k).dots.insert (m.context.nextDot a),
        (f (m.entryAt k).value).1⟩,
      m.removals, m.context.insert (m.context.nextDot a)⟩
    (.add k (m.context.nextDot a) :: (f (m.entryAt k).value).2.2.map (.value k))
  generalize (f (m.entryAt k).value).2.2 = l at hvalue ⊢
  refine ⟨?_, ?_, ?_, ?_, ?_⟩
  · rw [mergeAll_add_map_value, hvalue.state]
  · refine hE.union (δ := .add k (m.context.nextDot a)) (Nat.succ_pos _) hfresh rfl ?_
      hvalue.coherent
    intro r ts h
    cases h
  · intro δ hδ
    rcases List.mem_cons.mp hδ with rfl | hδ
    · rfl
    · obtain ⟨ε, hε, rfl⟩ := List.mem_map.mp hδ
      exact hvalue.authored ε hε
  · intro δ hδ hmem
    rcases List.mem_cons.mp hδ with rfl | hδ
    · exact hfresh _ hmem rfl
    · obtain ⟨ε, hε, rfl⟩ := List.mem_map.mp hδ
      exact hvalue.fresh ε hε hmem
  · refine List.nodup_cons.mpr ⟨by simp, hvalue.nodup.map fun δ ε heq => ?_⟩
    exact (OrMapDelta.value.inj heq).2

omit laws [CausalTimestamp T D] in
lemma IsSummary.handsOut_remove (hE : Consistent E) (hX : X ⊆ E) (h : m.IsSummary X) {a : Actor}
    (hown : ∀ δ ∈ E, author δ = a → δ ∈ X) :
    HandsOut E a m (m.remove (D := D) a k).1 (m.remove (D := D) a k).2.toList := by
  unfold OrMap.remove removeAs
  cases he : m.entries.get? k with
  | none => exact HandsOut.nothing hE
  | some e =>
    simp only
    split
    · exact HandsOut.nothing hE
    · have hfresh := h.dot_ne_nextDot hE hown
      have hadded : ∀ d ∈ e.dots, .add k d ∈ X := fun d hd => by
        rw [← entryAt_of_get? he] at hd
        exact ((h.mem_dots k d).mp hd).1
      refine HandsOut.one ?_ ?_ rfl fun hmem => hfresh _ hmem rfl
      · -- the tombstones are known already
        have hknown : m.context.insertAll (m.context.nextDot a :: e.dots.toList)
            = m.context.insert (m.context.nextDot a) := by
          rw [CausalContext.insertAll_cons]
          refine CausalContext.insertAll_of_contains fun d hd => ?_
          have := (h.contains_iff hE (hX (hadded d hd)) rfl).mpr
            (mem_dotsIn_of_dot? (hadded d hd) rfl)
          exact CausalContext.contains_insert.mpr (.inl this)
        change _ = (OrMap.merge m (.remove k (m.context.nextDot a) e.dots)).1
        rw [OrMap.merge, if_neg (by simp [CausalContext.not_contains_nextDot]), hknown]
        simp [SortedMap.alter_eq_insert, entryOr, he, SortedSet.diff_self]
      · have := hE.union (δ := .remove k (m.context.nextDot a) e.dots) (l := [])
          (Nat.succ_pos _) hfresh rfl ?_ ?_
        · change Consistent _
          simpa using this
        · intro r ts heq d hd
          cases heq
          exact hX (hadded d hd)
        · simpa [key] using hE.values k

/-! ### The laws -/

instance : Convergent (OrMap K V) where
  coherent_empty := ⟨by simp, by simp, by simp, fun k => by
    simpa [valueDeltas] using Convergent.coherent_empty V⟩
  summarizes_initial := isSummary_empty
  summarizes_unique hE hX h h' := IsSummary.eq hE hX h h'
  summarizes_merge hE hX hδ h := IsSummary.merge hE hX hδ h
  merge_of_reflects h := merge_of_reflects Convergent.merge_of_reflects h
  reflects_of_mem hE hX h hδ := IsSummary.reflects_of_mem hE hX h hδ
  not_reflects_initial {E δ} hE hδ := by
    have hnone : (empty : OrMap K V).IsSummary (∅ : Set (OrMapDelta K D)) := isSummary_empty
    cases hd : δ.dot? with
    | some d =>
      rw [reflects_of_dot? hd, ← Bool.not_eq_true]
      exact fun h => by simpa [dotsIn, Buried] using (hnone.contains_iff hE hδ hd).mp h
    | none =>
      obtain ⟨k, δ, rfl⟩ := exists_eq_value hd
      rfl
  mem_of_mem_deltasSince h hδ := IsSummary.mem_of_mem_deltasSince h hδ
  reflects_of_deltasSince hE hX hY h hu hsince hlisted hδ :=
    IsSummary.reflects_of_deltasSince hE hX hY h hu hsince hlisted hδ
  timestamp_union hE hX hY h h' hu := IsSummary.timestamp_union hE hX hY h h' hu

instance {O R Kᵥ : Type} [Operable V D O R Kᵥ] [HandsOutCoherently V] :
    HandsOutCoherently (OrMap K V) where
  handsOut_apply {E X m a op} hE hX h hown := by
    cases op with
    | mutate k op =>
      refine IsSummary.handsOut_mutate hE h hown (f := fun v => Operable.apply v a op) ?_
      exact HandsOutCoherently.handsOut_apply (hE.values k) (valueDeltas_mono hX)
        (IsSummary.value h k) fun δ hδ ha => hown _ hδ ha
    | remove k => exact IsSummary.handsOut_remove hE hX h hown

end OrMap

end DeltaRing
