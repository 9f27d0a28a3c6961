import DeltaRing.Proofs.Exchange.Stream
import DeltaRing.Proofs.Replication.Absorption
import Mathlib.Tactic.TFAE

/-!
What a merge reports.

A merge reports that nothing has changed exactly if it leaves the replica as it is, and that is if
the replica's timestamp reflects the delta. This holds of any state, and of any delta whose dots
count from one, whoever has made it up. A dot that counts from zero is below every frontier, so
that a replica which has seen nothing contains it already.
-/

namespace DeltaRing

class HasDots (D : Type) where
  /-- All dots of a delta, its tombstones included. -/
  dots : D → List Dot

def Numbered {D : Type} [HasDots D] (δ : D) : Prop := ∀ d ∈ HasDots.dots δ, 0 < d.counter

instance {D : Type} [HasDots D] (δ : D) : Decidable (Numbered δ) :=
  inferInstanceAs (Decidable (∀ d ∈ HasDots.dots δ, 0 < d.counter))

class Truthful (S : Type) {D T : outParam Type} [CausalTimestamp T D] [DeltaCrdt S D T]
    [HasDots D] : Prop where
  not_reflects_initial {δ : D} : Numbered δ → reflects (timestamp (initial : S)) δ = false
  updated_of_not_reflects {s : S} {δ : D} : Numbered δ → reflects (timestamp s) δ = false →
    (merge s δ).2 = .updated

instance {α : Type} : HasDots (OrSetDelta α) := ⟨OrSetDelta.dots⟩

instance {K V : Type} : HasDots (LwwDelta K V) := ⟨fun _ => []⟩

instance {K D : Type} [HasDots D] : HasDots (OrMapDelta K D) where
  dots
    | .value _ delta => HasDots.dots delta
    | δ => δ.dots

instance {α : Type} [Key α] : Truthful (OrSet α) where
  not_reflects_initial {δ} h :=
    CausalContext.not_contains_empty (h δ.dot (OrSetDelta.mem_dots_iff.mpr (.inl rfl)))
  updated_of_not_reflects {s δ} _ hnew := by
    have hd : s.context.contains δ.dot = false := hnew
    change (s.merge δ).2 = .updated
    cases δ <;> simp [OrSet.merge, hd]

instance {K V : Type} [Key K] : Truthful (LwwRegistry K V) where
  not_reflects_initial _ := rfl
  updated_of_not_reflects _ hnew := congrArg Prod.snd (LwwRegistry.merge_of_not_blocking hnew)

namespace OrMap

variable {K V D T : Type} [Key K] [CausalTimestamp T D] [DeltaCrdt V D T] [HasDots D]
  [Truthful V] {m : OrMap K V} {k : K}

lemma not_reflects_value {δ : D} (hδ : Numbered δ)
    (hnew : reflects (timestamp m) (.value k δ : OrMapDelta K D) = false) :
    reflects (DeltaRing.timestamp (m.entryAt k).value) δ = false := by
  cases he : m.entries.get? k with
  | none =>
    rw [entryAt_of_get?_eq_none he]
    exact Truthful.not_reflects_initial hδ
  | some e =>
    rw [entryAt_of_get? he, ← Bool.not_eq_true]
    rw [← Bool.not_eq_true, reflects_value_iff] at hnew
    exact fun hknown => hnew ⟨e, he, hknown⟩

instance : Truthful (OrMap K V) where
  not_reflects_initial {δ} h := by
    cases δ with
    | add k d => exact CausalContext.not_contains_empty (h d (List.mem_singleton.mpr rfl))
    | remove k r ts => exact CausalContext.not_contains_empty (h r List.mem_cons_self)
    | value k δ => rfl
  updated_of_not_reflects {m δ} h hnew := by
    change (m.merge δ).2 = .updated
    cases hd : δ.dot? with
    | some d =>
      rcases m.merge_cases hd with ⟨hknown, -⟩ | ⟨-, e, removals, -, hmerge⟩
      · rw [OrMapDelta.reflects_of_dot? hd] at hnew
        cases hknown.symm.trans hnew
      · rw [hmerge]
    | none =>
      obtain ⟨k, δ, rfl⟩ := OrMapDelta.exists_eq_value hd
      have hδ : Numbered δ := h
      exact Truthful.updated_of_not_reflects hδ (not_reflects_value hδ hnew)

end OrMap

namespace Family

instance hasDots : (F : Family) → HasDots F.Delta
  | orSet α => inferInstanceAs (HasDots (OrSetDelta α))
  | registry K V => inferInstanceAs (HasDots (LwwDelta K V))
  | orMap K value =>
    have := value.hasDots
    inferInstanceAs (HasDots (OrMapDelta K value.Delta))

instance truthful : (F : Family) → Truthful F.State
  | orSet α => inferInstanceAs (Truthful (OrSet α))
  | registry K V => inferInstanceAs (Truthful (LwwRegistry K V))
  | orMap K value =>
    have := value.truthful
    inferInstanceAs (Truthful (OrMap K value.State))

end Family

/-! ### One delta, and a list of them -/

section

variable {S D T : Type} [CausalTimestamp T D] [DeltaCrdt S D T] [Absorbing S] {s : S} {δ : D}
  {l l' : List D}

lemma merge_eq_self_iff : (merge s δ).1 = s ↔ reflects (timestamp s) δ = true := by
  constructor
  · intro hsame
    have hmerged := Absorbing.reflects_merge_self s δ
    rwa [hsame] at hmerged
  · exact fun hknown => congrArg Prod.fst (Absorbing.merge_of_reflects hknown)

lemma merge_unchanged_iff [HasDots D] [Truthful S] (h : Numbered δ) :
    (merge s δ).2 = .unchanged ↔ reflects (timestamp s) δ = true := by
  constructor
  · intro hsame
    by_contra hnew
    have hupdated := Truthful.updated_of_not_reflects h (Bool.not_eq_true _ ▸ hnew)
    rw [hsame] at hupdated
    cases hupdated
  · exact fun hknown => congrArg Prod.snd (Absorbing.merge_of_reflects hknown)

lemma mergeAll_eq_self_iff [Retentive S] :
    (mergeAll s l).1 = s ↔ ∀ δ ∈ l, reflects (timestamp s) δ = true := by
  constructor
  · intro hsame δ hδ
    have hmerged := reflects_mergeAll_of_mem (s := s) hδ
    rwa [hsame] at hmerged
  · exact fun hknown => congrArg Prod.fst (mergeAll_of_reflects hknown)

lemma mergeAll_unchanged_iff [HasDots D] [Truthful S] (h : ∀ δ ∈ l, Numbered δ) :
    (mergeAll s l).2 = .unchanged ↔ ∀ δ ∈ l, reflects (timestamp s) δ = true := by
  refine ⟨fun hsame => ?_, fun hknown => congrArg Prod.snd (mergeAll_of_reflects hknown)⟩
  induction l with
  | nil => simp
  | cons δ l ih =>
    have hδ : reflects (timestamp s) δ = true := by
      by_contra hnew
      have hupdated := Truthful.updated_of_not_reflects (h δ (by simp)) (Bool.not_eq_true _ ▸ hnew)
      rw [mergeAll_cons_updated hupdated] at hsame
      cases hsame
    have hrest : mergeAll s (δ :: l) = mergeAll s l := by
      simp only [mergeAll, List.foldl_cons, Absorbing.merge_of_reflects hδ]
      rfl
    rw [hrest] at hsame
    exact List.forall_mem_cons.mpr ⟨hδ, ih (fun ε hε => h ε (by simp [hε])) hsame⟩

lemma mergeAll_again [Retentive S] (h : l' ⊆ l) :
    mergeAll (mergeAll s l).1 l' = ((mergeAll s l).1, .unchanged) :=
  mergeAll_of_reflects fun _ hδ => reflects_mergeAll_of_mem (h hδ)

end

/-- **Merges report the truth.** For any state, a merge of a delta whose dots count from one reports
no change if and only if the state is the same afterwards, and if and only if its timestamp
reflects the delta. So merging many deltas reports a change if and only if the state has changed,
and to merge any of them again, in any order, changes nothing and is reported so. -/
theorem merge_is_truthful (F : Family) (s : F.State) :
    (∀ δ : F.Delta, Numbered δ → List.TFAE
      [(merge s δ).2 = .unchanged, (merge s δ).1 = s, reflects (timestamp s) δ = true]) ∧
    (∀ l : List F.Delta, (∀ δ ∈ l, Numbered δ) →
      ((mergeAll s l).2 = .updated ↔ (mergeAll s l).1 ≠ s)) ∧
    ∀ l l' : List F.Delta, l' ⊆ l →
      mergeAll (mergeAll s l).1 l' = ((mergeAll s l).1, .unchanged) := by
  refine ⟨fun δ hδ => ?_, fun l hl => ?_, fun l l' => mergeAll_again⟩
  · tfae_have 1 ↔ 3 := merge_unchanged_iff hδ
    tfae_have 2 ↔ 3 := merge_eq_self_iff
    tfae_finish
  · rw [Ne, mergeAll_eq_self_iff, ← mergeAll_unchanged_iff hl]
    cases (mergeAll s l).2 <;> simp

/-- Deltas that nobody has handed out: removals that bury themselves, and an addition under the dot
of a removal. -/
def madeUp : List (OrMapDelta Nat (OrSetDelta Nat)) :=
  [.value 1 (.remove ⟨"b", 4⟩ (.ofList [⟨"b", 4⟩, ⟨"c", 1⟩])),
    .remove 2 ⟨"b", 4⟩ (.ofList [⟨"b", 4⟩]), .add 2 ⟨"b", 4⟩]

theorem madeUp_merged_once :
    let m : OrMap Nat (OrSet Nat) := initial
    let m' := (mergeAll m madeUp).1
    let δ : OrMapDelta Nat (OrSetDelta Nat) := .add 3 ⟨"b", 4⟩
    m' ≠ m ∧ (merge m' δ).1 = m' ∧ mergeAll m' madeUp.reverse = (m', .unchanged) := by
  intro m m' δ
  have h := merge_is_truthful (.orMap Nat (.orSet Nat))
  have hnumbered : ∀ ε ∈ δ :: madeUp, Numbered ε := by decide +kernel
  have hchanged : (mergeAll m madeUp).2 = .updated := by decide +kernel
  have hknown : reflects (timestamp m') δ = true := by decide +kernel
  obtain ⟨hδ, hmadeUp⟩ := List.forall_mem_cons.mp hnumbered
  exact ⟨((h m).2.1 madeUp hmadeUp).mp hchanged, (((h m').1 δ hδ).out 1 2).mpr hknown,
    (h m).2.2 madeUp _ (List.reverse_subset.mpr (List.Subset.refl _))⟩

/-- A dot that counts from zero is not news to the value of a new key, but the key is. -/
example : let m : OrMap Nat (OrSet Nat) := initial
    (merge m (.value 1 (.add ⟨"a", 0⟩ 5))).2 = .unchanged ∧
      (merge m (.value 1 (.add ⟨"a", 0⟩ 5))).1 ≠ m := by
  decide +kernel

end DeltaRing
