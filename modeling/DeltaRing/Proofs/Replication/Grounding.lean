import DeltaRing.Proofs.Replication.Coded
import DeltaRing.Proofs.Replication.Freshness

/-!
Replicas reflect whatever they list.

Whatever deltas come and whatever operations are applied, the timestamp of a replica reflects every
delta that the replica lists. So it has nothing to send to a peer that has its timestamp, in
particular to a replica in the same state.
-/

namespace DeltaRing

variable {S D T O R K : Type}

def Grounded [CausalTimestamp T D] [DeltaCrdt S D T] (s : S) : Prop :=
  ∀ δ ∈ deltasSince s none, reflects (timestamp s) δ = true

class Grounding (S : Type) {D T : outParam Type} [CausalTimestamp T D] [DeltaCrdt S D T] :
    Prop where
  grounded_initial : Grounded (initial : S)
  grounded_merge {s : S} (δ : D) : Grounded s → Grounded (merge s δ).1

class GroundingByOperations (S : Type) {D T O R K : outParam Type} [CausalTimestamp T D]
    [DeltaCrdt S D T] [Operable S D O R K] : Prop where
  grounded_apply {s : S} (a : Actor) (op : O) : Grounded s → Grounded (Operable.apply s a op).1

/-- The states that deltas, whatever they are, and operations lead to. -/
inductive Arisen [DeltaCrdt S D T] [Operable S D O R K] : S → Prop
  | initial : Arisen initial
  | merge {s : S} (δ : D) : Arisen s → Arisen (merge s δ).1
  | apply {s : S} (a : Actor) (op : O) : Arisen s → Arisen (Operable.apply s a op).1

lemma arisen_mergeAll [DeltaCrdt S D T] [Operable S D O R K] {s : S} (h : Arisen s)
    (l : List D) : Arisen (mergeAll s l).1 := by
  induction l generalizing s with
  | nil => exact h
  | cons δ l ih =>
    rw [mergeAll_cons]
    exact ih (.merge δ h)

section

variable [CausalTimestamp T D] [DeltaCrdt S D T] [Operable S D O R K] [Grounding S]
  [GroundingByOperations S] {s : S}

lemma Arisen.grounded (h : Arisen s) : Grounded s := by
  induction h with
  | initial => exact Grounding.grounded_initial
  | merge δ _ ih => exact Grounding.grounded_merge δ ih
  | apply a op _ ih => exact GroundingByOperations.grounded_apply a op ih

/-- Nothing is left to send to a replica in the same state. -/
lemma Arisen.deltasSince_timestamp [Authored D] [Summary S D] [Listing S] (h : Arisen s) :
    deltasSince s (some (timestamp s)) = [] :=
  List.eq_nil_iff_forall_not_mem.mpr fun δ hδ => by
    obtain ⟨hlisted, hnew⟩ := Listing.mem_deltasSince_some.mp hδ
    rw [h.grounded δ hlisted] at hnew
    cases hnew

end

/-! ### Sets -/

namespace OrSet

open CausalContext

variable {α : Type} [Key α] {s : OrSet α}

lemma grounded_iff : Grounded s ↔ (∀ x, ∀ d ∈ s.dotsOf x, s.context.contains d = true) ∧
    ∀ r ts, s.removals.get? r = some ts → s.context.contains r = true := by
  constructor
  · exact fun h => ⟨fun x d hd => h (.add d x) (mem_deltasSince_none.mpr hd),
      fun r ts hr => h (.remove r ts) (mem_deltasSince_none.mpr hr)⟩
  · rintro ⟨hadds, hremovals⟩ δ hδ
    replace hδ := mem_deltasSince_none.mp hδ
    cases δ with
    | add d x => exact hadds x d hδ
    | remove r ts => exact hremovals r ts hδ

lemma grounded_enter (h : Grounded s) (d : Dot) (x : α) : Grounded (s.enter d x) := by
  rw [grounded_iff] at h ⊢
  refine ⟨fun y e he => contains_insert.mpr ?_, fun r ts hr =>
    contains_insert.mpr (.inl (h.2 r ts hr))⟩
  exact (mem_dotsOf_enter.mp he).imp (h.1 y e) And.left

/-- Items may be taken out while a removal comes in. -/
lemma Grounded.of_fewer {s' : OrSet α} {d : Dot} {ts : SortedSet Dot} (h : Grounded s)
    (hfewer : ∀ x, ∀ e ∈ s'.dotsOf x, e ∈ s.dotsOf x)
    (hremovals : s'.removals = s.removals.insert d ts)
    (hcontext : ∀ e, s.context.contains e = true ∨ e = d → s'.context.contains e = true) :
    Grounded s' := by
  rw [grounded_iff] at h ⊢
  refine ⟨fun x e he => hcontext e (.inl (h.1 x e (hfewer x e he))), fun r ts' hr => ?_⟩
  by_cases hrd : r = d
  · exact hcontext r (.inr hrd)
  · rw [hremovals, SortedMap.get?_insert_of_ne hrd] at hr
    exact hcontext r (.inl (h.2 r ts' hr))

lemma mem_dotsOf_of_erase {x y : α} {d : Dot} {removals : SortedMap Dot (SortedSet Dot)}
    {c : CausalContext} (hd : d ∈ (⟨s.entries.erase x, removals, c⟩ : OrSet α).dotsOf y) :
    d ∈ s.dotsOf y := by
  by_cases hy : y = x
  · subst hy
    simp [dotsOf, SortedMap.getD] at hd
  · simpa [dotsOf, SortedMap.getD, SortedMap.get?_erase_of_ne hy] using hd

lemma grounded_remove (h : Grounded s) (a : Actor) (x : α) : Grounded (s.remove a x).1 := by
  rw [remove, removeAs]
  split
  · exact h
  · dsimp only
    split
    · rw [grounded_iff] at h ⊢
      exact ⟨fun y d hd => h.1 y d (mem_dotsOf_of_erase hd), h.2⟩
    · exact Grounded.of_fewer h (fun y d hd => mem_dotsOf_of_erase hd) rfl
        fun e => contains_insert.mpr

instance : Grounding (OrSet α) where
  grounded_initial _ hδ := absurd hδ List.not_mem_nil
  grounded_merge {s} δ h := by
    change Grounded (s.merge δ).1
    unfold OrSet.merge
    split
    · exact h
    · cases δ with
      | add d x => exact grounded_enter h d x
      | remove r ts =>
        refine Grounded.of_fewer h (fun x d hd => ?_) rfl fun e he => contains_insertAll.mpr ?_
        · rw [dotsOf, getD_bury, SortedSet.mem_diff] at hd
          exact hd.1
        · exact he.imp_right fun heq => List.mem_cons.mpr (.inl heq)

instance : GroundingByOperations (OrSet α) where
  grounded_apply a op h := by
    cases op with
    | add x => exact grounded_enter h _ x
    | remove x => exact grounded_remove h a x

end OrSet

/-! ### Registries -/

namespace LwwRegistry

variable {K V : Type} [Key K] {r : LwwRegistry K V}

lemma grounded (r : LwwRegistry K V) : Grounded r := fun _ hδ =>
  reflects_timestamp_iff.mpr
    ⟨_, mem_deltasSince_none.mp hδ, by rw [LwwDelta.stamp_entry]; exact LwwStamp.isBelow_self⟩

instance : Grounding (LwwRegistry K V) where
  grounded_initial := grounded _
  grounded_merge _ _ := grounded _

instance : GroundingByOperations (LwwRegistry K V) where
  grounded_apply _ _ _ := grounded _

end LwwRegistry

/-! ### Maps -/

namespace OrMap

open CausalContext

variable {K V D T : Type} [Key K] [CausalTimestamp T D] [DeltaCrdt V D T] {m : OrMap K V} {k : K}
  {e : OrMapEntry V}

lemma grounded_iff : Grounded m ↔
    (∀ k, ∀ d ∈ (m.entryAt k).dots, m.context.contains d = true) ∧
      (∀ r x, m.removals.get? r = some x → m.context.contains r = true) ∧
        ∀ k e, m.entries.get? k = some e → Grounded e.value := by
  constructor
  · refine fun h => ⟨fun k d hd => h (.add k d) (mem_deltasSince_none.mpr hd),
      fun r x hr => h (.remove x.1 r x.2) (mem_deltasSince_none.mpr hr), fun k e he δ hδ => ?_⟩
    obtain ⟨e', he', hreflects⟩ :=
      reflects_value_iff.mp (h (.value k δ) (mem_deltasSince_none.mpr ⟨e, he, hδ⟩))
    rw [he, Option.some.injEq] at he'
    exact he' ▸ hreflects
  · rintro ⟨hadds, hremovals, hvalues⟩ δ hδ
    replace hδ := mem_deltasSince_none.mp hδ
    cases δ with
    | add k d => exact hadds k d hδ
    | remove k r ts => exact hremovals r (k, ts) hδ
    | value k δ =>
      obtain ⟨e, he, hδ⟩ := hδ
      exact reflects_value_iff.mpr ⟨e, he, hvalues k e he δ hδ⟩

lemma Grounded.value [Grounding V] (h : Grounded m) (k : K) : Grounded (m.entryAt k).value := by
  cases he : m.entries.get? k with
  | none =>
    rw [entryAt_of_get?_eq_none he]
    exact Grounding.grounded_initial
  | some e =>
    rw [entryAt_of_get? he]
    exact (grounded_iff.mp h).2.2 k e he

/-- One entry changes, and the context grows by what that brings. -/
lemma Grounded.insert {removals : SortedMap Dot (K × SortedSet Dot)} {c : CausalContext}
    (h : Grounded m) (hc : ∀ d, m.context.contains d = true → c.contains d = true)
    (hdots : ∀ d ∈ e.dots, c.contains d = true)
    (hremovals : ∀ r x, removals.get? r = some x → c.contains r = true)
    (hvalue : Grounded e.value) : Grounded (⟨m.entries.insert k e, removals, c⟩ : OrMap K V) := by
  rw [grounded_iff] at h ⊢
  refine ⟨fun k' d hd => ?_, hremovals, fun k' e' he' => ?_⟩
  · by_cases hk : k' = k
    · subst hk
      rw [entryAt_insert_self] at hd
      exact hdots d hd
    · rw [entryAt_insert_of_ne hk] at hd
      exact hc d (h.1 k' d hd)
  · by_cases hk : k' = k
    · subst hk
      rw [SortedMap.get?_insert_self, Option.some.injEq] at he'
      exact he' ▸ hvalue
    · rw [SortedMap.get?_insert_of_ne hk] at he'
      exact h.2.2 k' e' he'

/-- The entry takes a dot that comes into the context. -/
lemma Grounded.insertDot {value : V} (h : Grounded m) (d : Dot) (hvalue : Grounded value) :
    Grounded (⟨m.entries.insert k ⟨(m.entryAt k).dots.insert d, value⟩, m.removals,
      m.context.insert d⟩ : OrMap K V) := by
  obtain ⟨hadds, hremovals, -⟩ := grounded_iff.mp h
  refine Grounded.insert h (fun e he => contains_insert.mpr (.inl he)) (fun e he => ?_)
    (fun r x hr => contains_insert.mpr (.inl (hremovals r x hr))) hvalue
  exact contains_insert.mpr ((SortedSet.mem_insert.mp he).symm.imp_left (hadds k e))

/-- The entry loses dots to a removal that comes into the context. -/
lemma Grounded.bury [Grounding V] {ds ts : SortedSet Dot} {d : Dot} {c : CausalContext}
    (h : Grounded m) (hds : ∀ e ∈ ds, e ∈ (m.entryAt k).dots)
    (hc : ∀ e, m.context.contains e = true ∨ e = d → c.contains e = true) :
    Grounded (⟨m.entries.insert k ⟨ds, (m.entryAt k).value⟩, m.removals.insert d (k, ts), c⟩ :
      OrMap K V) := by
  obtain ⟨hadds, hremovals, -⟩ := grounded_iff.mp h
  refine Grounded.insert h (fun e he => hc e (.inl he))
    (fun e he => hc e (.inl (hadds k e (hds e he)))) (fun r x hr => hc r ?_) (Grounded.value h k)
  by_cases hrd : r = d
  · exact .inr hrd
  · rw [SortedMap.get?_insert_of_ne hrd] at hr
    exact .inl (hremovals r x hr)

instance [Grounding V] : Grounding (OrMap K V) where
  grounded_initial _ hδ := absurd hδ List.not_mem_nil
  grounded_merge {m} δ h := by
    change Grounded (m.merge δ).1
    cases δ with
    | add k d =>
      rw [merge]
      split
      · exact h
      · dsimp only
        rw [SortedMap.alter_eq_insert]
        exact Grounded.insertDot h d (Grounded.value h k)
    | remove k r ts =>
      rw [merge]
      split
      · exact h
      · dsimp only
        rw [SortedMap.alter_eq_insert]
        refine Grounded.bury h (fun e he => (SortedSet.mem_diff.mp he).1) fun e he => ?_
        exact contains_insertAll.mpr (he.imp_right fun heq => List.mem_cons.mpr (.inl heq))
    | value k δ =>
      obtain ⟨hadds, hremovals, -⟩ := grounded_iff.mp h
      exact Grounded.insert h (fun _ => id) (hadds k) hremovals
        (Grounding.grounded_merge δ (Grounded.value h k))

instance {O R Kᵥ : Type} [Operable V D O R Kᵥ] [Grounding V] [GroundingByOperations V] :
    GroundingByOperations (OrMap K V) where
  grounded_apply {m} a op h := by
    cases op with
    | mutate k op =>
      exact Grounded.insertDot h _ (GroundingByOperations.grounded_apply a op (Grounded.value h k))
    | remove k =>
      change Grounded (m.remove (D := D) a k).1
      rcases m.remove_cases (D := D) a k with heq | ⟨e, he, heq⟩
      · rw [heq]
        exact h
      · rw [heq, ← entryAt_of_get? he]
        exact Grounded.bury h (fun _ hd => by simp at hd) fun _ => contains_insert.mpr

end OrMap

/-! ### Types with codes -/

instance CrdtType.grounding : (t : CrdtType) → Grounding t.State
  | orSet item => inferInstanceAs (Grounding (OrSet item.Carrier))
  | registry key value => inferInstanceAs (Grounding (LwwRegistry key.Carrier value.Carrier))
  | orMap key value =>
    have := value.grounding
    inferInstanceAs (Grounding (OrMap key.Carrier value.State))

instance CrdtType.groundingByOperations : (t : CrdtType) → GroundingByOperations t.State
  | orSet item => inferInstanceAs (GroundingByOperations (OrSet item.Carrier))
  | registry key value =>
    inferInstanceAs (GroundingByOperations (LwwRegistry key.Carrier value.Carrier))
  | orMap key value =>
    have := value.groundingByOperations
    inferInstanceAs (GroundingByOperations (OrMap key.Carrier value.State))

end DeltaRing
