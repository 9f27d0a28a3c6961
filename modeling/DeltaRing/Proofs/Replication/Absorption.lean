import DeltaRing.Proofs.Replication.Freshness

/-!
Deltas are merged once.

Merging a delta makes a replica reflect it, and a delta that is reflected changes nothing. What a
replica hands out it reflects from then on. Like the laws of freshness these hold of any state.
-/

namespace DeltaRing

class Absorbing (S : Type) {D T : outParam Type} [CausalTimestamp T D] [DeltaCrdt S D T] :
    Prop where
  merge_of_reflects {s : S} {δ : D} : reflects (timestamp s) δ = true → merge s δ = (s, .unchanged)
  reflects_merge_self (s : S) (δ : D) : reflects (timestamp (merge s δ).1) δ = true

/-- What an operation hands out is merged where it was applied. -/
class AbsorbingOperations (S : Type) {D T O R K : outParam Type} [CausalTimestamp T D]
    [DeltaCrdt S D T] [Operable S D O R K] : Prop where
  reflects_of_apply {s : S} {a : Actor} {op : O} {δ : D} : δ ∈ (Operable.apply s a op).2.2 →
    reflects (timestamp (Operable.apply s a op).1) δ = true

section

variable {S D T : Type} [CausalTimestamp T D] [DeltaCrdt S D T] [Absorbing S] {s : S} {l : List D}

lemma mergeAll_of_reflects (h : ∀ δ ∈ l, reflects (timestamp s) δ = true) :
    mergeAll s l = (s, .unchanged) := by
  induction l with
  | nil => rfl
  | cons δ l ih =>
    have hδ : merge s δ = (s, .unchanged) := Absorbing.merge_of_reflects (h δ (by simp))
    simp only [mergeAll, List.foldl_cons, hδ]
    exact ih fun ε hε => h ε (by simp [hε])

lemma reflects_mergeAll_of_mem [Retentive S] {δ : D} (h : δ ∈ l) :
    reflects (timestamp (mergeAll s l).1) δ = true := by
  induction l generalizing s with
  | nil => cases h
  | cons ε l ih =>
    rw [mergeAll_cons]
    rcases List.mem_cons.mp h with rfl | h
    · exact Retentive.reflects_mergeAll (Absorbing.reflects_merge_self s δ)
    · exact ih h

end

/-! ### Sets -/

namespace OrSet

variable {α : Type} [Key α]

lemma contains_merge_dot (s : OrSet α) (δ : OrSetDelta α) :
    (s.merge δ).1.context.contains δ.dot = true := by
  unfold OrSet.merge
  split
  · assumption
  · cases δ with
    | add d x => exact CausalContext.contains_insert.mpr (.inr rfl)
    | remove r ts => exact CausalContext.contains_insertAll.mpr (.inr (List.mem_cons_self))

instance : Absorbing (OrSet α) where
  merge_of_reflects h := if_pos h
  reflects_merge_self := contains_merge_dot

instance : AbsorbingOperations (OrSet α) where
  reflects_of_apply {s a op δ} hδ := by
    cases op with
    | add x =>
      cases List.mem_singleton.mp hδ
      exact CausalContext.contains_insert.mpr (.inr rfl)
    | remove x =>
      replace hδ : δ ∈ (s.remove a x).2.toList := hδ
      change (s.remove a x).1.context.contains δ.dot = true
      rcases s.remove_cases a x with ⟨-, hnone⟩ | ⟨ts, hc, hsome⟩
      · simp [hnone] at hδ
      · rw [hsome, Option.toList_some, List.mem_singleton] at hδ
        rw [hc, hδ]
        exact CausalContext.contains_insert.mpr (.inr rfl)

end OrSet

/-! ### Registries -/

namespace LwwRegistry

variable {K V : Type} [Key K]

lemma reflects_timestamp_merge_self (r : LwwRegistry K V) (δ : LwwDelta K V) :
    reflects (timestamp (r.merge δ).1) δ = true := by
  cases hδ : reflects (timestamp r) δ with
  | true => rwa [merge_of_blocking hδ]
  | false =>
    rw [merge_of_not_blocking hδ]
    exact reflects_timestamp_iff.mpr
      ⟨δ.entry, by simp, by rw [LwwDelta.stamp_entry]; exact LwwStamp.isBelow_self⟩

instance : Absorbing (LwwRegistry K V) where
  merge_of_reflects := merge_of_blocking
  reflects_merge_self := reflects_timestamp_merge_self

instance : AbsorbingOperations (LwwRegistry K V) where
  reflects_of_apply {r a op δ} hδ := by
    cases hb : reflects (timestamp r) (op.delta a) with
    | true =>
      obtain ⟨output, happly⟩ := apply_of_reflects hb
      simp [happly] at hδ
    | false =>
      rw [apply_of_not_reflects hb] at hδ ⊢
      rw [List.mem_singleton.mp hδ]
      exact reflects_timestamp_merge_self r _

end LwwRegistry

/-! ### Maps -/

namespace OrMap

variable {K V D T : Type} [Key K] [CausalTimestamp T D] [DeltaCrdt V D T]

instance [Absorbing V] : Absorbing (OrMap K V) where
  merge_of_reflects h := merge_of_reflects Absorbing.merge_of_reflects h
  reflects_merge_self m δ := by
    cases hd : δ.dot? with
    | some d =>
      rw [OrMapDelta.reflects_of_dot? hd]
      change (m.merge δ).1.context.contains d = true
      rcases m.merge_cases hd with ⟨hknown, hmerge⟩ | ⟨-, e, removals, -, hmerge⟩ <;> rw [hmerge]
      · exact hknown
      · exact CausalContext.contains_insertAll.mpr (.inr (OrMapDelta.mem_dots_iff.mpr (.inl hd)))
    | none =>
      obtain ⟨k, δ, rfl⟩ := OrMapDelta.exists_eq_value hd
      exact reflects_value_iff.mpr
        ⟨_, SortedMap.get?_insert_self, Absorbing.reflects_merge_self _ δ⟩

instance {O R Kᵥ : Type} [Operable V D O R Kᵥ] [AbsorbingOperations V] :
    AbsorbingOperations (OrMap K V) where
  reflects_of_apply {m a op δ} hδ := by
    cases op with
    | mutate k op =>
      replace hδ : δ ∈ .add k (m.context.nextDot a) ::
        (Operable.apply (m.entryAt k).value a op).2.2.map (.value k) := hδ
      rcases List.mem_cons.mp hδ with rfl | hδ
      · exact CausalContext.contains_insert.mpr (.inr rfl)
      · obtain ⟨ε, hε, rfl⟩ := List.mem_map.mp hδ
        exact reflects_value_iff.mpr
          ⟨_, SortedMap.get?_insert_self, AbsorbingOperations.reflects_of_apply hε⟩
    | remove k =>
      replace hδ : δ ∈ (m.remove (D := D) a k).2.toList := hδ
      change reflects (timestamp (m.remove (D := D) a k).1) δ = true
      rcases m.remove_cases (D := D) a k with hnone | ⟨e, he, hsome⟩
      · simp [hnone] at hδ
      · rw [hsome] at hδ ⊢
        rw [Option.toList_some, List.mem_singleton] at hδ
        subst hδ
        exact CausalContext.contains_insert.mpr (.inr rfl)

end OrMap

/-! ### Families, and types that have codes -/

instance Family.absorbing : (F : Family) → Absorbing F.State
  | orSet α => inferInstanceAs (Absorbing (OrSet α))
  | registry K V => inferInstanceAs (Absorbing (LwwRegistry K V))
  | orMap K value =>
    have := value.absorbing
    inferInstanceAs (Absorbing (OrMap K value.State))

namespace CrdtType

instance absorbing : (t : CrdtType) → Absorbing t.State
  | orSet item => inferInstanceAs (Absorbing (OrSet item.Carrier))
  | registry key value => inferInstanceAs (Absorbing (LwwRegistry key.Carrier value.Carrier))
  | orMap key value =>
    have := value.absorbing
    inferInstanceAs (Absorbing (OrMap key.Carrier value.State))

instance absorbingOperations : (t : CrdtType) → AbsorbingOperations t.State
  | orSet item => inferInstanceAs (AbsorbingOperations (OrSet item.Carrier))
  | registry key value =>
    inferInstanceAs (AbsorbingOperations (LwwRegistry key.Carrier value.Carrier))
  | orMap key value =>
    have := value.absorbingOperations
    inferInstanceAs (AbsorbingOperations (OrMap key.Carrier value.State))

end CrdtType

end DeltaRing
