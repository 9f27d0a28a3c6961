import DeltaRing.CrdtType
import DeltaRing.Proofs.Replication.Family

/-!
What a replica reflects it reflects for good, and what it hands out it did not reflect before.

No run stands behind these laws: they hold of any state, whatever has been merged into it and
whoever handed that out. So they also hold of a replica that has lost what its actor did before.
-/

namespace DeltaRing

class Retentive (S : Type) {D T : outParam Type} [CausalTimestamp T D] [DeltaCrdt S D T] :
    Prop where
  reflects_join {t t' : T} {δ : D} : reflects t δ = true → reflects (Lattice.join t t') δ = true
  reflects_merge {s : S} {δ ε : D} : reflects (timestamp s) δ = true →
    reflects (timestamp (merge s ε).1) δ = true

/-- An operation loses nothing that is reflected, and what it hands out is news. -/
class HandsOutNews (S : Type) {D T O R K : outParam Type} [CausalTimestamp T D] [DeltaCrdt S D T]
    [Operable S D O R K] : Prop where
  reflects_apply {s : S} {a : Actor} {op : O} {δ : D} : reflects (timestamp s) δ = true →
    reflects (timestamp (Operable.apply s a op).1) δ = true
  not_reflects_of_apply {s : S} {a : Actor} {op : O} {δ : D} :
    δ ∈ (Operable.apply s a op).2.2 → reflects (timestamp s) δ = false

namespace Retentive

variable {S D T : Type} [CausalTimestamp T D] [DeltaCrdt S D T] [Retentive S] {s : S} {t : T}
  {δ : D} {l : List D}

lemma reflects_mergeAll (h : reflects (timestamp s) δ = true) :
    reflects (timestamp (mergeAll s l).1) δ = true := by
  induction l generalizing s with
  | nil => exact h
  | cons ε l ih =>
    rw [mergeAll_cons]
    exact ih (reflects_merge h)

lemma reflects_of_leq [DecidableEq T] (h : Lattice.leq t (timestamp s) = true)
    (hδ : reflects t δ = true) : reflects (timestamp s) δ = true := by
  rw [← Lattice.leq_iff.mp h]
  exact reflects_join S hδ

end Retentive

/-! ### Sets -/

namespace OrSet

variable {α : Type} [Key α] {s : OrSet α} {a : Actor} {d : Dot}

lemma contains_context_merge {δ : OrSetDelta α} (h : s.context.contains d = true) :
    (s.merge δ).1.context.contains d = true := by
  unfold OrSet.merge
  split
  · exact h
  · cases δ with
    | add e x => exact CausalContext.contains_insert.mpr (.inl h)
    | remove r ts => exact CausalContext.contains_insertAll.mpr (.inl h)

/-- A removal mints a dot, or it does nothing but drop the item. -/
lemma remove_cases (s : OrSet α) (a : Actor) (x : α) :
    (s.remove a x).1.context = s.context ∧ (s.remove a x).2 = none ∨
      ∃ ts, (s.remove a x).1.context = s.context.insert (s.context.nextDot a) ∧
        (s.remove a x).2 = some (.remove (s.context.nextDot a) ts) := by
  rw [OrSet.remove, removeAs]
  split
  · exact .inl ⟨rfl, rfl⟩
  · dsimp only
    split
    · exact .inl ⟨rfl, rfl⟩
    · exact .inr ⟨_, rfl, rfl⟩

instance : Retentive (OrSet α) where
  reflects_join h := CausalContext.contains_merge.mpr (.inl h)
  reflects_merge h := contains_context_merge h

instance : HandsOutNews (OrSet α) where
  reflects_apply {s a op δ} h := by
    cases op with
    | add x => exact CausalContext.contains_insert.mpr (.inl h)
    | remove x =>
      change (s.remove a x).1.context.contains δ.dot = true
      rcases s.remove_cases a x with ⟨hc, -⟩ | ⟨ts, hc, -⟩ <;> rw [hc]
      · exact h
      · exact CausalContext.contains_insert.mpr (.inl h)
  not_reflects_of_apply {s a op δ} hδ := by
    cases op with
    | add x =>
      cases List.mem_singleton.mp hδ
      exact CausalContext.not_contains_nextDot
    | remove x =>
      replace hδ : δ ∈ (s.remove a x).2.toList := hδ
      rcases s.remove_cases a x with ⟨-, hnone⟩ | ⟨ts, -, hsome⟩
      · simp [hnone] at hδ
      · rw [hsome, Option.toList_some, List.mem_singleton] at hδ
        subst hδ
        exact CausalContext.not_contains_nextDot

end OrSet

/-! ### Registries -/

namespace LwwRegistry

variable {K V : Type} [Key K] {r : LwwRegistry K V} {t t' : LwwTimestamp K} {δ ε : LwwDelta K V}

lemma reflects_join_left (h : reflects t δ = true) : reflects (Lattice.join t t') δ = true := by
  rw [reflects_iff] at h ⊢
  obtain ⟨seen, hseen, hle⟩ := h
  rw [get?_join, hseen]
  cases t'.stamps.get? δ.key with
  | none => exact ⟨seen, rfl, hle⟩
  | some b => exact ⟨_, rfl, LwwStamp.newerOf_not_isBelow hle⟩

/-- The entry that a write replaces was older. -/
lemma reflects_timestamp_merge (h : reflects (timestamp r) δ = true) :
    reflects (timestamp (r.merge ε).1) δ = true := by
  cases hε : reflects (timestamp r) ε with
  | true => rwa [merge_of_blocking hε]
  | false =>
    rw [merge_of_not_blocking hε]
    obtain ⟨e, he, hle⟩ := reflects_timestamp_iff.mp h
    refine reflects_timestamp_iff.mpr ?_
    by_cases hk : δ.key = ε.key
    · refine ⟨ε.entry, by rw [hk, SortedMap.get?_insert_self], ?_⟩
      have hnew : e.stamp.isBelow ε.stamp = true := by
        by_contra hnot
        have : reflects (timestamp r) ε = true :=
          reflects_timestamp_iff.mpr ⟨e, hk ▸ he, by simpa using hnot⟩
        rw [hε] at this
        cases this
      rw [LwwDelta.stamp_entry]
      exact LwwStamp.not_isBelow_trans (LwwStamp.isBelow_asymm hnew) hle
    · exact ⟨e, by rw [SortedMap.get?_insert_of_ne hk, he], hle⟩

instance : Retentive (LwwRegistry K V) where
  reflects_join h := reflects_join_left h
  reflects_merge h := reflects_timestamp_merge h

instance : HandsOutNews (LwwRegistry K V) where
  reflects_apply {s a op δ} h := by
    cases hb : reflects (timestamp s) (op.delta a) with
    | true =>
      obtain ⟨output, happly⟩ := apply_of_reflects hb
      rwa [happly]
    | false =>
      rw [apply_of_not_reflects hb]
      exact reflects_timestamp_merge h
  not_reflects_of_apply {s a op δ} hδ := by
    cases hb : reflects (timestamp s) (op.delta a) with
    | true =>
      obtain ⟨output, happly⟩ := apply_of_reflects hb
      simp [happly] at hδ
    | false =>
      rw [apply_of_not_reflects hb, List.mem_singleton] at hδ
      rwa [hδ]

end LwwRegistry

/-! ### Maps -/

namespace OrMap

open OrMapDelta

variable {K V D T : Type} [Key K] [CausalTimestamp T D] [DeltaCrdt V D T] {m : OrMap K V} {k : K}
  {δ ε : OrMapDelta K D}

lemma reflects_join_left {t t' : MapTimestamp K T}
    (hvalues : ∀ (t t' : T) (δ : D), reflects t δ = true → reflects (Lattice.join t t') δ = true)
    (h : reflects t δ = true) : reflects (Lattice.join t t') δ = true := by
  cases hd : δ.dot? with
  | some d =>
    rw [reflects_of_dot? hd] at h ⊢
    exact CausalContext.contains_merge.mpr (.inl h)
  | none =>
    obtain ⟨k, δ, rfl⟩ := exists_eq_value hd
    rw [reflects_value] at h ⊢
    obtain ⟨mine, hmine, hδ⟩ := h
    rw [get?_join, hmine]
    cases t'.values.get? k with
    | none => exact ⟨mine, rfl, hδ⟩
    | some theirs => exact ⟨_, rfl, hvalues _ _ _ hδ⟩

/-- A change of one entry loses nothing if its context and its value lose nothing. -/
lemma reflects_timestamp_insert {e : OrMapEntry V} {removals : SortedMap Dot (K × SortedSet Dot)}
    {c : CausalContext} (hc : ∀ d, m.context.contains d = true → c.contains d = true)
    (he : ∀ δ : D, reflects (DeltaRing.timestamp (m.entryAt k).value) δ = true →
      reflects (DeltaRing.timestamp e.value) δ = true)
    (h : reflects (timestamp m) δ = true) :
    reflects (timestamp (⟨m.entries.insert k e, removals, c⟩ : OrMap K V)) δ = true := by
  cases hd : δ.dot? with
  | some d =>
    rw [reflects_of_dot? hd] at h ⊢
    exact hc d h
  | none =>
    obtain ⟨k', δ, rfl⟩ := exists_eq_value hd
    obtain ⟨e', he', hδ⟩ := reflects_value_iff.mp h
    refine reflects_value_iff.mpr ?_
    by_cases hk : k' = k
    · subst hk
      refine ⟨e, SortedMap.get?_insert_self, he δ ?_⟩
      rwa [entryAt_of_get? he']
    · exact ⟨e', by rw [SortedMap.get?_insert_of_ne hk, he'], hδ⟩

lemma reflects_timestamp_merge [Retentive V] (h : reflects (timestamp m) δ = true) :
    reflects (timestamp (m.merge ε).1) δ = true := by
  cases hd : ε.dot? with
  | some d =>
    rcases m.merge_cases hd with ⟨-, hmerge⟩ | ⟨-, e, removals, hvalue, hmerge⟩ <;> rw [hmerge]
    · exact h
    · exact reflects_timestamp_insert (fun _ hc => CausalContext.contains_insertAll.mpr (.inl hc))
        (fun _ => by rw [hvalue]; exact id) h
  | none =>
    obtain ⟨k, ε, rfl⟩ := exists_eq_value hd
    exact reflects_timestamp_insert (fun _ => id) (fun _ => Retentive.reflects_merge) h

omit [CausalTimestamp T D] [DeltaCrdt V D T] in
lemma remove_cases (m : OrMap K V) (a : Actor) (k : K) :
    m.remove (D := D) a k = (m, none) ∨ ∃ e, m.entries.get? k = some e ∧
      m.remove (D := D) a k = (⟨m.entries.insert k { e with dots := .empty },
        m.removals.insert (m.context.nextDot a) (k, e.dots),
        m.context.insert (m.context.nextDot a)⟩,
        some (.remove k (m.context.nextDot a) e.dots)) := by
  rw [OrMap.remove, removeAs]
  split
  · exact .inl rfl
  · rename_i e he
    split
    · exact .inl rfl
    · exact .inr ⟨e, he, rfl⟩

instance [Retentive V] : Retentive (OrMap K V) where
  reflects_join h := reflects_join_left (fun _ _ _ => Retentive.reflects_join V) h
  reflects_merge h := reflects_timestamp_merge h

instance {O R Kᵥ : Type} [Operable V D O R Kᵥ] [HandsOutNews V] : HandsOutNews (OrMap K V) where
  reflects_apply {m a op δ} h := by
    cases op with
    | mutate k op =>
      exact reflects_timestamp_insert (fun _ hc => CausalContext.contains_insert.mpr (.inl hc))
        (fun _ => HandsOutNews.reflects_apply) h
    | remove k =>
      change reflects (timestamp (m.remove (D := D) a k).1) δ = true
      rcases m.remove_cases (D := D) a k with hnone | ⟨e, he, hsome⟩
      · rwa [hnone]
      · rw [hsome]
        refine reflects_timestamp_insert
          (fun _ hc => CausalContext.contains_insert.mpr (.inl hc)) (fun ε hε => ?_) h
        rwa [entryAt_of_get? he] at hε
  not_reflects_of_apply {m a op δ} hδ := by
    have hfresh : m.context.contains (m.context.nextDot a) = false :=
      CausalContext.not_contains_nextDot
    cases op with
    | mutate k op =>
      replace hδ : δ ∈ .add k (m.context.nextDot a) ::
        (Operable.apply (m.entryAt k).value a op).2.2.map (.value k) := hδ
      rcases List.mem_cons.mp hδ with rfl | hδ
      · exact hfresh
      · obtain ⟨ε, hε, rfl⟩ := List.mem_map.mp hδ
        rw [← Bool.not_eq_true]
        intro hknown
        obtain ⟨e, he, hr⟩ := reflects_value_iff.mp hknown
        rw [entryAt_of_get? he] at hε
        rw [HandsOutNews.not_reflects_of_apply hε] at hr
        cases hr
    | remove k =>
      replace hδ : δ ∈ (m.remove (D := D) a k).2.toList := hδ
      rcases m.remove_cases (D := D) a k with hnone | ⟨e, he, hsome⟩
      · simp [hnone] at hδ
      · rw [hsome, Option.toList_some, List.mem_singleton] at hδ
        subst hδ
        exact hfresh

end OrMap

/-! ### Families, and types that have codes -/

instance Family.retentive : (F : Family) → Retentive F.State
  | orSet α => inferInstanceAs (Retentive (OrSet α))
  | registry K V => inferInstanceAs (Retentive (LwwRegistry K V))
  | orMap K value =>
    have := value.retentive
    inferInstanceAs (Retentive (OrMap K value.State))

namespace CrdtType

instance retentive : (t : CrdtType) → Retentive t.State
  | orSet item => inferInstanceAs (Retentive (OrSet item.Carrier))
  | registry key value => inferInstanceAs (Retentive (LwwRegistry key.Carrier value.Carrier))
  | orMap key value =>
    have := value.retentive
    inferInstanceAs (Retentive (OrMap key.Carrier value.State))

instance handsOutNews : (t : CrdtType) → HandsOutNews t.State
  | orSet item => inferInstanceAs (HandsOutNews (OrSet item.Carrier))
  | registry key value => inferInstanceAs (HandsOutNews (LwwRegistry key.Carrier value.Carrier))
  | orMap key value =>
    have := value.handsOutNews
    inferInstanceAs (HandsOutNews (OrMap key.Carrier value.State))

end CrdtType

end DeltaRing
