import DeltaRing.Proofs.Replication.Grounding
import Mathlib.Algebra.BigOperators.Group.List.Basic
import Mathlib.Algebra.GroupWithZero.Nat

/-!
What stands in the history of a replica.

The size estimate of a replica counts the deltas of its full history. Nothing stands there but what
came in and what the replica has handed out itself, and once anything does, something always will:
what is removed leaves its removal behind. So a replica of no size is one in its initial state, as
long as all that came in was handed out by some replica.
-/

namespace DeltaRing

variable {S D T O R K : Type}

def Stores [DeltaCrdt S D T] (s : S) : Prop := ∃ δ, δ ∈ deltasSince s none

def Telling (S : Type) {D T : outParam Type} [DeltaCrdt S D T] (δ : D) : Prop :=
  Stores (merge (initial : S) δ).1

class Historic (S : Type) {D T : outParam Type} [DeltaCrdt S D T] : Prop where
  sizeEstimate_eq (s : S) : sizeEstimate s = (deltasSince s none).length
  deltasSince_initial : deltasSince (initial : S) none = []
  history_merge {s : S} {δ ε : D} : ε ∈ deltasSince (merge s δ).1 none →
    ε = δ ∨ ε ∈ deltasSince s none
  stores_merge {s : S} (δ : D) : Stores s → Stores (merge s δ).1

/-- The laws of the history for operations. What one hands out is news to an empty replica. -/
class HistoricByOperations (S : Type) {D T O R K : outParam Type} [DeltaCrdt S D T]
    [Operable S D O R K] : Prop where
  history_apply {s : S} {a : Actor} {op : O} {ε : D} :
    ε ∈ deltasSince (Operable.apply s a op).1 none →
      ε ∈ (Operable.apply s a op).2.2 ∨ ε ∈ deltasSince s none
  stores_apply {s : S} (a : Actor) (op : O) : Stores s → Stores (Operable.apply s a op).1
  apply_initial (a : Actor) (op : O) : (Operable.apply (initial : S) a op).1 = initial ∨
    Stores (Operable.apply (initial : S) a op).1
  telling_of_apply {s : S} {a : Actor} {op : O} {δ : D} : δ ∈ (Operable.apply s a op).2.2 →
    Telling S δ

section

variable [DeltaCrdt S D T] [Historic S] {s : S} {l : List D}

lemma history_mergeAll {ε : D} (h : ε ∈ deltasSince (mergeAll s l).1 none) :
    ε ∈ l ∨ ε ∈ deltasSince s none := by
  induction l generalizing s with
  | nil => exact .inr h
  | cons δ l ih =>
    rw [mergeAll_cons] at h
    rcases ih h with hl | hmerged
    · exact .inl (List.mem_cons_of_mem _ hl)
    · exact (Historic.history_merge hmerged).imp_left fun heq => List.mem_cons.mpr (.inl heq)

/-- The replica is in its initial state or stores something, and whatever it lists is telling. -/
structure Genuine (s : S) : Prop where
  stores : s = initial ∨ Stores s
  telling : ∀ δ ∈ deltasSince s none, Telling S δ

lemma genuine_initial : Genuine (initial : S) :=
  ⟨.inl rfl, fun δ hδ => by
    rw [Historic.deltasSince_initial] at hδ
    cases hδ⟩

lemma Genuine.merge {δ : D} (h : Genuine s) (hδ : Telling S δ) : Genuine (merge s δ).1 where
  stores := by
    rcases h.stores with rfl | hs
    · exact .inr hδ
    · exact .inr (Historic.stores_merge δ hs)
  telling ε hε := (Historic.history_merge hε).elim (fun heq => heq ▸ hδ) (h.telling ε)

lemma Genuine.mergeAll (h : Genuine s) (hl : ∀ δ ∈ l, Telling S δ) :
    Genuine (mergeAll s l).1 := by
  induction l generalizing s with
  | nil => exact h
  | cons δ l ih =>
    obtain ⟨hδ, hl⟩ := List.forall_mem_cons.mp hl
    rw [mergeAll_cons]
    exact ih (h.merge hδ) hl

omit [Historic S] in
lemma Genuine.apply [Operable S D O R K] [HistoricByOperations S] (h : Genuine s) (a : Actor)
    (op : O) : Genuine (Operable.apply s a op).1 where
  stores := by
    rcases h.stores with rfl | hs
    · exact HistoricByOperations.apply_initial a op
    · exact .inr (HistoricByOperations.stores_apply a op hs)
  telling ε hε := (HistoricByOperations.history_apply hε).elim
    HistoricByOperations.telling_of_apply (h.telling ε)

end

/-- What is listed for a timestamp stands in the history. -/
lemma mem_history [CausalTimestamp T D] [DeltaCrdt S D T] [Authored D] [Summary S D] [Listing S]
    {s : S} {since : Option T} {δ : D} (h : δ ∈ deltasSince s since) : δ ∈ deltasSince s none := by
  cases since with
  | none => exact h
  | some t => exact (Listing.mem_deltasSince_some.mp h).1

lemma total_eq_sum (l : List Nat) : total l = l.sum := by
  induction l with
  | nil => rfl
  | cons n l ih => rw [total, ih, List.sum_cons]

lemma CausalContext.contains_empty_nextDot {c : CausalContext} {a : Actor} :
    empty.contains (c.nextDot a) = false :=
  CausalContext.not_contains_empty (Nat.succ_pos _)

/-! ### Sets -/

namespace OrSet

open CausalContext

variable {α : Type} [Key α] {s : OrSet α} {x : α} {d r : Dot} {ts : SortedSet Dot}
  {δ ε : OrSetDelta α}

lemma stores_of_mem (h : d ∈ s.dotsOf x) : Stores s := ⟨.add d x, mem_deltasSince_none.mpr h⟩

lemma stores_of_removal (h : s.removals.get? r = some ts) : Stores s :=
  ⟨.remove r ts, mem_deltasSince_none.mpr h⟩

lemma history_enter (h : ε ∈ (s.enter d x).deltasSince none) :
    ε = .add d x ∨ ε ∈ s.deltasSince none := by
  rw [mem_deltasSince_none] at h ⊢
  cases ε with
  | add e y =>
    rcases mem_dotsOf_enter.mp h with hold | ⟨rfl, rfl⟩
    · exact .inr hold
    · exact .inl rfl
  | remove r ts => exact .inr h

/-- Items may be taken out while a removal comes in. -/
lemma history_of_fewer {s' : OrSet α} (hfewer : ∀ x, ∀ e ∈ s'.dotsOf x, e ∈ s.dotsOf x)
    (hremovals : s'.removals = s.removals.insert r ts) (h : ε ∈ s'.deltasSince none) :
    ε = .remove r ts ∨ ε ∈ s.deltasSince none := by
  rw [mem_deltasSince_none] at h ⊢
  cases ε with
  | add e y => exact .inr (hfewer y e h)
  | remove r' ts' =>
    replace h : s'.removals.get? r' = some ts' := h
    by_cases hr : r' = r
    · subst hr
      rw [hremovals, SortedMap.get?_insert_self, Option.some.injEq] at h
      exact .inl (h ▸ rfl)
    · rw [hremovals, SortedMap.get?_insert_of_ne hr] at h
      exact .inr h

/-- A removal drops an item without dots, if it does anything at all, or it is handed out. -/
lemma removeAs_eq (s : OrSet α) (d : Dot) (x : α) :
    (s.removeAs d x = (s, none)) ∨
      (s.dotsOf x = .empty ∧ s.removeAs d x = ({ s with entries := s.entries.erase x }, none)) ∨
      s.removeAs d x = (⟨s.entries.erase x, s.removals.insert d (s.dotsOf x), s.context.insert d⟩,
        some (.remove d (s.dotsOf x))) := by
  rw [removeAs]
  cases hx : s.entries.get? x with
  | none => exact .inl rfl
  | some ts =>
    rw [dotsOf_of_get? hx]
    by_cases hts : ts.isEmpty = true
    · exact .inr (.inl ⟨SortedSet.isEmpty_iff.mp hts, by simp [hts]⟩)
    · exact .inr (.inr (by simp [hts]))

lemma remove_eq (s : OrSet α) (a : Actor) (x : α) :
    (s.remove a x = (s, none)) ∨
      (s.dotsOf x = .empty ∧ s.remove a x = ({ s with entries := s.entries.erase x }, none)) ∨
      s.remove a x = (⟨s.entries.erase x, s.removals.insert (s.context.nextDot a) (s.dotsOf x),
        s.context.insert (s.context.nextDot a)⟩,
        some (.remove (s.context.nextDot a) (s.dotsOf x))) :=
  s.removeAs_eq _ x

instance : Historic (OrSet α) where
  sizeEstimate_eq s := by
    change total (s.entries.values.map SortedSet.size) + s.removals.size =
      (s.deltasSince none).length
    simp [deltasSince, SortedMap.values, SortedMap.size, SortedSet.size, total_eq_sum,
      List.length_flatMap, Function.comp_def, Nat.add_comm]
  deltasSince_initial := rfl
  history_merge {s δ ε} h := by
    replace h : ε ∈ (s.merge δ).1.deltasSince none := h
    unfold OrSet.merge at h
    split at h
    · exact .inr h
    · cases δ with
      | add d x => exact history_enter h
      | remove r ts =>
        refine history_of_fewer (fun x e he => ?_) rfl h
        rw [dotsOf, getD_bury, SortedSet.mem_diff] at he
        exact he.1
  stores_merge {s} δ h := by
    change Stores (s.merge δ).1
    unfold OrSet.merge
    split
    · exact h
    · cases δ with
      | add d x => exact stores_of_mem (mem_dotsOf_enter.mpr (.inr ⟨rfl, rfl⟩))
      | remove r ts => exact stores_of_removal SortedMap.get?_insert_self

instance : HistoricByOperations (OrSet α) where
  history_apply {s a op ε} h := by
    cases op with
    | add x => exact (history_enter h).imp_left List.mem_singleton.mpr
    | remove x =>
      change ε ∈ (s.remove a x).2.toList ∨ _
      replace h : ε ∈ (s.remove a x).1.deltasSince none := h
      rcases s.remove_eq a x with heq | ⟨-, heq⟩ | heq
      · rw [heq] at h
        exact .inr h
      · rw [heq] at h
        refine .inr ?_
        rw [mem_deltasSince_none] at h
        cases ε with
        | add d y => exact mem_deltasSince_none.mpr (mem_dotsOf_of_erase h)
        | remove r ts => exact mem_deltasSince_none.mpr h
      · rw [heq] at h ⊢
        exact (history_of_fewer (fun y e he => mem_dotsOf_of_erase he) rfl h).imp_left
          List.mem_singleton.mpr
  stores_apply {s} a op h := by
    cases op with
    | add x => exact stores_of_mem (mem_dotsOf_enter.mpr (.inr ⟨rfl, rfl⟩))
    | remove x =>
      change Stores (s.remove a x).1
      rcases s.remove_eq a x with heq | ⟨hempty, heq⟩ | heq <;> rw [heq]
      · exact h
      · obtain ⟨δ, hδ⟩ := h
        refine ⟨δ, mem_deltasSince_none.mpr ?_⟩
        replace hδ := mem_deltasSince_none.mp hδ
        cases δ with
        | add d y =>
          have hy : y ≠ x := fun hyx => by simp [hyx, hempty] at hδ
          simpa [dotsOf, SortedMap.getD, SortedMap.get?_erase_of_ne hy] using hδ
        | remove r ts => exact hδ
      · exact stores_of_removal SortedMap.get?_insert_self
  apply_initial a op := by
    cases op with
    | add x => exact .inr (stores_of_mem (mem_dotsOf_enter.mpr (.inr ⟨rfl, rfl⟩)))
    | remove x => exact .inl rfl
  telling_of_apply {s a op δ} hδ := by
    cases op with
    | add x =>
      obtain rfl : δ = .add (s.context.nextDot a) x := List.mem_singleton.mp hδ
      exact stores_of_mem (mem_dotsOf_enter.mpr (.inr ⟨rfl, rfl⟩))
    | remove x =>
      replace hδ : δ ∈ (s.remove a x).2.toList := hδ
      rcases s.remove_eq a x with heq | ⟨-, heq⟩ | heq <;> rw [heq] at hδ
      · cases hδ
      · cases hδ
      · obtain rfl : δ = .remove (s.context.nextDot a) (s.dotsOf x) := List.mem_singleton.mp hδ
        exact stores_of_removal SortedMap.get?_insert_self

end OrSet

/-! ### Registries -/

namespace LwwRegistry

variable {K V : Type} [Key K] {r : LwwRegistry K V} {k : K} {e : LwwEntry V} {δ ε : LwwDelta K V}

lemma stores_of_get? (h : r.entries.get? k = some e) : Stores r :=
  ⟨.ofEntry k e, mem_deltasSince_none.mpr (by simpa using h)⟩

lemma history_insert
    (h : ε ∈ (⟨r.entries.insert δ.key δ.entry⟩ : LwwRegistry K V).deltasSince none) :
    ε = δ ∨ ε ∈ r.deltasSince none := by
  rw [mem_deltasSince_none] at h ⊢
  by_cases hk : ε.key = δ.key
  · rw [hk, SortedMap.get?_insert_self, Option.some.injEq] at h
    rw [← ε.ofEntry_entry, ← δ.ofEntry_entry, hk, h]
    exact .inl rfl
  · rw [SortedMap.get?_insert_of_ne hk] at h
    exact .inr h

instance : Historic (LwwRegistry K V) where
  sizeEstimate_eq r := by
    change r.entries.size = (r.deltasSince none).length
    simp [deltasSince, SortedMap.size]
  deltasSince_initial := rfl
  history_merge {r δ ε} h := by
    replace h : ε ∈ (r.merge δ).1.deltasSince none := h
    rw [merge] at h
    split at h
    · exact .inr h
    · exact history_insert h
  stores_merge {r} δ h := by
    change Stores (r.merge δ).1
    rw [merge]
    split
    · exact h
    · exact stores_of_get? SortedMap.get?_insert_self

lemma apply_eq (r : LwwRegistry K V) (a : Actor) (op : LwwOperation K V) :
    (∃ output, Operable.apply r a op = (r, output, [])) ∨
      Operable.apply r a op = ((r.merge (op.delta a)).1, .applied, [op.delta a]) := by
  cases hb : reflects (timestamp r) (op.delta a) with
  | true => exact .inl (apply_of_reflects hb)
  | false => exact .inr (apply_of_not_reflects hb)

instance : HistoricByOperations (LwwRegistry K V) where
  history_apply {r a op ε} h := by
    rcases r.apply_eq a op with ⟨output, heq⟩ | heq <;> rw [heq] at h ⊢
    · exact .inr h
    · exact (Historic.history_merge h).imp_left List.mem_singleton.mpr
  stores_apply {r} a op h := by
    rcases r.apply_eq a op with ⟨output, heq⟩ | heq <;> rw [heq]
    · exact h
    · exact Historic.stores_merge _ h
  apply_initial a op := by
    rcases empty.apply_eq a op with ⟨output, heq⟩ | heq
    · exact .inl (congrArg Prod.fst heq)
    · refine .inr ?_
      rw [show Operable.apply initial a op = _ from heq]
      exact stores_of_get? SortedMap.get?_insert_self
  telling_of_apply {r a op δ} hδ := stores_of_get? SortedMap.get?_insert_self

end LwwRegistry

/-! ### Maps -/

namespace OrMap

variable {K V D T : Type} [Key K] [DeltaCrdt V D T] {m : OrMap K V} {k : K} {d r : Dot}
  {ts : SortedSet Dot} {e : OrMapEntry V} {δ ε : OrMapDelta K D}

lemma stores_of_mem (h : d ∈ (m.entryAt k).dots) : Stores m :=
  ⟨.add k d, mem_deltasSince_none.mpr h⟩

lemma stores_of_removal (h : m.removals.get? r = some (k, ts)) : Stores m :=
  ⟨.remove k r ts, mem_deltasSince_none.mpr h⟩

lemma stores_of_value (h : m.entries.get? k = some e) (he : Stores e.value) : Stores m := by
  obtain ⟨δ, hδ⟩ := he
  exact ⟨.value k δ, mem_deltasSince_none.mpr ⟨e, h, hδ⟩⟩

omit [Key K] in
lemma removal_of_insert {removals : SortedMap Dot (K × SortedSet Dot)} {x : K × SortedSet Dot}
    (hx : (removals.insert d (k, ts)).get? r = some x) :
    removals.get? r = some x ∨ (.remove x.1 r x.2 : OrMapDelta K D) ∈ [.remove k d ts] := by
  by_cases hr : r = d
  · subst hr
    rw [SortedMap.get?_insert_self, Option.some.injEq] at hx
    exact .inr (hx ▸ List.mem_singleton_self _)
  · rw [SortedMap.get?_insert_of_ne hr] at hx
    exact .inl hx

/-- One entry changes, and everything new is in a list. -/
lemma history_insert [Historic V] {l : List (OrMapDelta K D)} {ds : SortedSet Dot} {v : V}
    {removals : SortedMap Dot (K × SortedSet Dot)} {c : CausalContext}
    (hdots : ∀ d ∈ ds, d ∈ (m.entryAt k).dots ∨ .add k d ∈ l)
    (hremovals : ∀ r x, removals.get? r = some x →
      m.removals.get? r = some x ∨ .remove x.1 r x.2 ∈ l)
    (hvalue : ∀ δ ∈ DeltaRing.deltasSince v none,
      .value k δ ∈ l ∨ δ ∈ DeltaRing.deltasSince (m.entryAt k).value none)
    (h : ε ∈ (⟨m.entries.insert k ⟨ds, v⟩, removals, c⟩ : OrMap K V).deltasSince none) :
    ε ∈ l ∨ ε ∈ m.deltasSince none := by
  rw [mem_deltasSince_none] at h ⊢
  cases ε with
  | add k' d =>
    dsimp only at h ⊢
    by_cases hk : k' = k
    · subst hk
      rw [entryAt_insert_self] at h
      exact (hdots d h).symm
    · rw [entryAt_insert_of_ne hk] at h
      exact .inr h
  | remove k' r ts => exact (hremovals r (k', ts) h).symm
  | value k' δ =>
    obtain ⟨e, he, hδ⟩ := h
    by_cases hk : k' = k
    · subst hk
      rw [SortedMap.get?_insert_self, Option.some.injEq] at he
      subst he
      refine (hvalue δ hδ).imp_right fun hold => ?_
      cases hget : m.entries.get? k' with
      | none =>
        rw [entryAt_of_get?_eq_none hget, Historic.deltasSince_initial] at hold
        cases hold
      | some e => exact ⟨e, hget, by rwa [entryAt_of_get? hget] at hold⟩
    · rw [SortedMap.get?_insert_of_ne hk] at he
      exact .inr ⟨e, he, hδ⟩

lemma Stores.insertValue {v : V} (h : Stores m) (hv : Stores (m.entryAt k).value → Stores v) :
    Stores (⟨m.entries.insert k ⟨(m.entryAt k).dots, v⟩, m.removals, m.context⟩ : OrMap K V) := by
  obtain ⟨δ, hδ⟩ := h
  replace hδ := mem_deltasSince_none.mp hδ
  cases δ with
  | add k' d =>
    refine stores_of_mem (k := k') (d := d) ?_
    by_cases hk : k' = k
    · subst hk
      rwa [entryAt_insert_self]
    · rwa [entryAt_insert_of_ne hk]
  | remove k' r ts => exact stores_of_removal hδ
  | value k' δ =>
    obtain ⟨e, he, hδ⟩ := hδ
    by_cases hk : k' = k
    · subst hk
      rw [entryAt_of_get? he] at hv ⊢
      exact stores_of_value SortedMap.get?_insert_self (hv ⟨δ, hδ⟩)
    · exact stores_of_value ((SortedMap.get?_insert_of_ne hk).trans he) ⟨δ, hδ⟩

lemma mem_entryAt_insertDot {v : V} {removals : SortedMap Dot (K × SortedSet Dot)}
    {c : CausalContext} : d ∈ ((⟨m.entries.insert k ⟨(m.entryAt k).dots.insert d, v⟩, removals, c⟩ :
      OrMap K V).entryAt k).dots := by
  rw [entryAt_insert_self]
  exact SortedSet.mem_insert.mpr (.inl rfl)

lemma stores_merge_add (hd : m.context.contains d = false) :
    Stores (m.merge (.add k d : OrMapDelta K D)).1 := by
  rw [merge, if_neg (by simp [hd])]
  dsimp only
  rw [SortedMap.alter_eq_insert]
  exact stores_of_mem mem_entryAt_insertDot

lemma stores_merge_remove (hd : m.context.contains d = false) :
    Stores (m.merge (.remove k d ts : OrMapDelta K D)).1 := by
  rw [merge, if_neg (by simp [hd])]
  exact stores_of_removal SortedMap.get?_insert_self

instance [Historic V] : Historic (OrMap K V) where
  sizeEstimate_eq m := by
    change total (m.entries.values.map fun e => sizeEstimate e.value + e.dots.size) +
      m.removals.size = (m.deltasSince none).length
    simp [deltasSince, SortedMap.values, SortedMap.size, SortedSet.size, total_eq_sum,
      Historic.sizeEstimate_eq, List.length_flatMap, Function.comp_def, List.sum_map_add]
    omega
  deltasSince_initial := rfl
  history_merge {m δ ε} h := by
    have hsame : ∀ r x, m.removals.get? r = some x →
        m.removals.get? r = some x ∨ .remove x.1 r x.2 ∈ [δ] := fun r x => .inl
    replace h : ε ∈ (m.merge δ).1.deltasSince none := h
    refine Or.imp_left List.mem_singleton.mp ?_
    cases δ with
    | add k d =>
      rw [merge] at h
      split at h
      · exact .inr h
      · dsimp only at h
        rw [SortedMap.alter_eq_insert] at h
        refine history_insert (fun e he => ?_) hsame (fun _ => .inr) h
        exact (SortedSet.mem_insert.mp he).symm.imp_right fun (heq : e = d) =>
          heq ▸ List.mem_singleton_self _
    | remove k r ts =>
      rw [merge] at h
      split at h
      · exact .inr h
      · dsimp only at h
        rw [SortedMap.alter_eq_insert] at h
        exact history_insert (fun e he => .inl (SortedSet.mem_diff.mp he).1)
          (fun _ _ => removal_of_insert) (fun _ => .inr) h
    | value k δ =>
      refine history_insert (fun _ => .inl) hsame (fun ε hε => ?_) h
      exact (Historic.history_merge hε).imp_left fun (heq : ε = δ) =>
        heq ▸ List.mem_singleton_self _
  stores_merge {m} δ h := by
    change Stores (m.merge δ).1
    cases δ with
    | add k d =>
      cases hd : m.context.contains d with
      | true => rwa [merge, if_pos hd]
      | false => exact stores_merge_add hd
    | remove k r ts =>
      cases hr : m.context.contains r with
      | true => rwa [merge, if_pos hr]
      | false => exact stores_merge_remove hr
    | value k δ => exact Stores.insertValue h (Historic.stores_merge δ)

instance {O R Kᵥ : Type} [Operable V D O R Kᵥ] [Historic V] [HistoricByOperations V] :
    HistoricByOperations (OrMap K V) where
  history_apply {m a op ε} h := by
    cases op with
    | mutate k op =>
      refine history_insert (fun d hd => ?_) (fun r x => .inl) (fun δ hδ => ?_) h
      · exact (SortedSet.mem_insert.mp hd).symm.imp_right fun (heq : d = m.context.nextDot a) =>
          heq ▸ List.mem_cons_self
      · exact (HistoricByOperations.history_apply hδ).imp_left fun hout =>
          List.mem_cons_of_mem _ (List.mem_map_of_mem hout)
    | remove k =>
      change ε ∈ (m.remove (D := D) a k).2.toList ∨ _
      replace h : ε ∈ (m.remove (D := D) a k).1.deltasSince none := h
      rcases m.remove_cases (D := D) a k with heq | ⟨e, he, heq⟩
      · rw [heq] at h
        exact .inr h
      · rw [heq] at h ⊢
        refine history_insert (fun d hd => absurd hd SortedSet.not_mem_empty)
          (fun _ _ => removal_of_insert) (fun δ hδ => .inr ?_) h
        rwa [entryAt_of_get? he]
  stores_apply {m} a op h := by
    cases op with
    | mutate k op => exact stores_of_mem mem_entryAt_insertDot
    | remove k =>
      change Stores (m.remove (D := D) a k).1
      rcases m.remove_cases (D := D) a k with heq | ⟨e, he, heq⟩ <;> rw [heq]
      · exact h
      · exact stores_of_removal SortedMap.get?_insert_self
  apply_initial a op := by
    cases op with
    | mutate k op => exact .inr (stores_of_mem mem_entryAt_insertDot)
    | remove k => exact .inl rfl
  telling_of_apply {m a op δ} hδ := by
    cases op with
    | mutate k op =>
      rcases List.mem_cons.mp hδ with rfl | hδ
      · exact stores_merge_add CausalContext.contains_empty_nextDot
      · obtain ⟨δ, hout, rfl⟩ := List.mem_map.mp hδ
        exact stores_of_value SortedMap.get?_insert_self (HistoricByOperations.telling_of_apply hout)
    | remove k =>
      replace hδ : δ ∈ (m.remove (D := D) a k).2.toList := hδ
      rcases m.remove_cases (D := D) a k with heq | ⟨e, he, heq⟩ <;> rw [heq] at hδ
      · cases hδ
      · obtain rfl : δ = .remove k (m.context.nextDot a) e.dots := List.mem_singleton.mp hδ
        exact stores_merge_remove CausalContext.contains_empty_nextDot

end OrMap

/-! ### Types with codes -/

instance CrdtType.historic : (t : CrdtType) → Historic t.State
  | orSet item => inferInstanceAs (Historic (OrSet item.Carrier))
  | registry key value => inferInstanceAs (Historic (LwwRegistry key.Carrier value.Carrier))
  | orMap key value =>
    have := value.historic
    inferInstanceAs (Historic (OrMap key.Carrier value.State))

instance CrdtType.historicByOperations : (t : CrdtType) → HistoricByOperations t.State
  | orSet item => inferInstanceAs (HistoricByOperations (OrSet item.Carrier))
  | registry key value =>
    inferInstanceAs (HistoricByOperations (LwwRegistry key.Carrier value.Carrier))
  | orMap key value =>
    have := value.historicByOperations
    inferInstanceAs (HistoricByOperations (OrMap key.Carrier value.State))

end DeltaRing
