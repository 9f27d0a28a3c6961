import DeltaRing.Proofs.Causal.Dots
import DeltaRing.Proofs.Replication.History

/-!
What holds of a set whatever is merged into it.

A delta that arrives is merged as it is: its dot may have been used before, and a removal may name
any dots as its tombstones. Still no item stays without dots, no dot is live twice or both live and
removed, and the context knows exactly the dots that the set holds in one place or another. A delta
gets past the context only with a dot that the set does not hold, so each change keeps all of this.

Counters are words here, and a delta may bring the last one. From then on the actor's counters start
over, and it reuses dots. So this holds as long as an actor mints dots only where it has counters
left.
-/

namespace DeltaRing.OrSet

variable {α : Type} [Key α] {s s' : OrSet α} {x : α} {d e r : Dot} {ts : SortedSet Dot}

/-- States that merges of any deltas lead to, and local operations that hand out deltas only where
`Admits` says so. -/
inductive Reached (Admits : OrSet α → Actor → Prop) : OrSet α → Prop
  | empty : Reached Admits empty
  | apply {s : OrSet α} (a : Actor) (op : OrSetOperation α) : Reached Admits s →
    ((Operable.applyInWords s a op).2.2 ≠ [] → Admits s a) →
    Reached Admits (Operable.applyInWords s a op).1
  | merge {s : OrSet α} (δ : OrSetDelta α) : Reached Admits s → Reached Admits (s.merge δ).1

def HasRoom (s : OrSet α) (a : Actor) : Prop := (s.context.nextDot a).counter < word64

def IsLive (s : OrSet α) (d : Dot) : Prop := ∃ x, d ∈ s.dotsOf x

def IsRemoval (s : OrSet α) (d : Dot) : Prop := ∃ ts, s.removals.get? d = some ts

def IsTombstone (s : OrSet α) (d : Dot) : Prop := ∃ r ts, s.removals.get? r = some ts ∧ d ∈ ts

structure WellFormed (s : OrSet α) : Prop where
  live : ∀ x ds, s.entries.get? x = some ds → ds ≠ .empty
  item_eq : ∀ x y d, d ∈ s.dotsOf x → d ∈ s.dotsOf y → x = y
  not_removal : ∀ d, s.IsLive d → ¬ s.IsRemoval d
  not_tombstone : ∀ d, s.IsLive d → ¬ s.IsTombstone d
  /-- Tombstones may count from zero, and such a dot is none of the context. -/
  mem_dots : ∀ d, d ∈ s.context.dots ↔
    s.IsLive d ∨ s.IsRemoval d ∨ (0 < d.counter ∧ s.IsTombstone d)

/-! ### One change -/

lemma wellFormed_empty : (empty : OrSet α).WellFormed where
  live x ds h := by cases h
  item_eq x y d h := by simp [dotsOf, empty, SortedMap.getD] at h
  not_removal d _ h := by
    obtain ⟨ts, h⟩ := h
    cases h
  not_tombstone d _ h := by
    obtain ⟨r, ts, h, -⟩ := h
    cases h
  mem_dots d := by
    change d ∈ CausalContext.empty.dots ↔ _
    simp [CausalContext.dots_empty, IsLive, IsRemoval, IsTombstone, dotsOf, empty, SortedMap.getD]

/-- The set holds no dot that its context does not know. -/
lemma WellFormed.not_held (hs : s.WellFormed) (hnew : s.context.contains d = false) :
    ¬ s.IsLive d ∧ ¬ s.IsRemoval d ∧ ¬ s.IsTombstone d := by
  have hpos := CausalContext.counter_pos_of_not_contains hnew
  have hout : d ∉ s.context.dots := fun hd => by
    rw [hd.2] at hnew
    cases hnew
  rw [hs.mem_dots, not_or, not_or, not_and] at hout
  exact ⟨hout.1, hout.2.1, hout.2.2 hpos⟩

lemma isLive_enter : (s.enter d x).IsLive e ↔ s.IsLive e ∨ e = d := by
  simp only [IsLive, mem_dotsOf_enter, exists_or]
  exact or_congr_right ⟨fun ⟨_, he, _⟩ => he, fun he => ⟨x, he, rfl⟩⟩

lemma WellFormed.enter (hs : s.WellFormed) (hnew : s.context.contains d = false) :
    (s.enter d x).WellFormed := by
  obtain ⟨hlive, hremoval, htombstone⟩ := hs.not_held hnew
  refine ⟨live_enter hs.live, fun y z e hy hz => ?_, fun e he hr => ?_, fun e he ht => ?_,
    fun e => ?_⟩
  · rcases mem_dotsOf_enter.mp hy with hold | ⟨rfl, rfl⟩ <;>
      rcases mem_dotsOf_enter.mp hz with hold' | ⟨heq, rfl⟩
    · exact hs.item_eq y z e hold hold'
    · exact absurd ⟨y, heq ▸ hold⟩ hlive
    · exact absurd ⟨z, hold'⟩ hlive
    · rfl
  · rcases isLive_enter.mp he with he | rfl
    · exact hs.not_removal e he hr
    · exact hremoval hr
  · rcases isLive_enter.mp he with he | rfl
    · exact hs.not_tombstone e he ht
    · exact htombstone ht
  · have hpos := CausalContext.counter_pos_of_not_contains hnew
    change e ∈ (s.context.record d).1.dots ↔
      _ ∨ s.IsRemoval e ∨ (0 < e.counter ∧ s.IsTombstone e)
    rw [CausalContext.dots_record hpos, Set.mem_union, hs.mem_dots, isLive_enter,
      Set.mem_singleton_iff, or_right_comm]

/-- A removal comes in, and takes its tombstones out of all items. -/
structure Removes (r : Dot) (ts : SortedSet Dot) (s s' : OrSet α) : Prop where
  live : ∀ x ds, s'.entries.get? x = some ds → ds ≠ .empty
  mem_dotsOf : ∀ x d, d ∈ s'.dotsOf x ↔ d ∈ s.dotsOf x ∧ d ∉ ts
  removals : s'.removals = s.removals.insert r ts
  dots : s'.context.dots = s.context.dots ∪ {d | 0 < d.counter ∧ (d = r ∨ d ∈ ts)}

lemma Removes.isLive (h : Removes r ts s s') : s'.IsLive e ↔ s.IsLive e ∧ e ∉ ts := by
  simp only [IsLive, h.mem_dotsOf, exists_and_right]

lemma Removes.isRemoval (h : Removes r ts s s') : s'.IsRemoval e ↔ s.IsRemoval e ∨ e = r := by
  rw [IsRemoval, IsRemoval, h.removals]
  by_cases he : e = r
  · subst he
    simp
  · simp [SortedMap.get?_insert_of_ne he, he]

/-- No stored removal had the dot, so none is replaced. -/
lemma Removes.isTombstone (h : Removes r ts s s') (hnew : ¬ s.IsRemoval r) :
    s'.IsTombstone e ↔ s.IsTombstone e ∨ e ∈ ts := by
  rw [IsTombstone, IsTombstone, h.removals]
  constructor
  · rintro ⟨r', ts', hr', he⟩
    by_cases hr : r' = r
    · subst hr
      rw [SortedMap.get?_insert_self, Option.some.injEq] at hr'
      exact .inr (hr' ▸ he)
    · rw [SortedMap.get?_insert_of_ne hr] at hr'
      exact .inl ⟨r', ts', hr', he⟩
  · rintro (⟨r', ts', hr', he⟩ | he)
    · have hr : r' ≠ r := by
        rintro rfl
        exact hnew ⟨ts', hr'⟩
      exact ⟨r', ts', by rw [SortedMap.get?_insert_of_ne hr, hr'], he⟩
    · exact ⟨r, ts, SortedMap.get?_insert_self, he⟩

lemma WellFormed.removes (hs : s.WellFormed) (h : Removes r ts s s')
    (hnew : s.context.contains r = false) : s'.WellFormed := by
  obtain ⟨hlive, hremoval, -⟩ := hs.not_held hnew
  have hpos := CausalContext.counter_pos_of_not_contains hnew
  refine ⟨h.live, fun x y e hx hy => ?_, fun e he hr => ?_, fun e he ht => ?_, fun e => ?_⟩
  · exact hs.item_eq x y e ((h.mem_dotsOf x e).mp hx).1 ((h.mem_dotsOf y e).mp hy).1
  · obtain ⟨he, -⟩ := h.isLive.mp he
    rcases h.isRemoval.mp hr with hr | rfl
    · exact hs.not_removal e he hr
    · exact hlive he
  · obtain ⟨he, hts⟩ := h.isLive.mp he
    exact ((h.isTombstone hremoval).mp ht).elim (hs.not_tombstone e he) hts
  · have hcounter : s.IsLive e → 0 < e.counter := fun he => ((hs.mem_dots e).mpr (.inl he)).1
    rw [h.dots, Set.mem_union, hs.mem_dots, h.isLive, h.isRemoval, h.isTombstone hremoval,
      Set.mem_ofPred_eq]
    constructor
    · rintro ((he | he | he) | ⟨hc, rfl | he⟩)
      · by_cases hts : e ∈ ts
        · exact .inr (.inr ⟨hcounter he, .inr hts⟩)
        · exact .inl ⟨he, hts⟩
      · exact .inr (.inl (.inl he))
      · exact .inr (.inr ⟨he.1, .inl he.2⟩)
      · exact .inr (.inl (.inr rfl))
      · exact .inr (.inr ⟨hc, .inr he⟩)
    · rintro (he | (he | rfl) | ⟨hc, he | he⟩)
      · exact .inl (.inl he.1)
      · exact .inl (.inr (.inl he))
      · exact .inr ⟨hpos, .inl rfl⟩
      · exact .inl (.inr (.inr ⟨hc, he⟩))
      · exact .inr ⟨hc, .inr he⟩

lemma WellFormed.merge (hs : s.WellFormed) (δ : OrSetDelta α) : (s.merge δ).1.WellFormed := by
  unfold OrSet.merge
  split
  · exact hs
  · rename_i hnew
    rw [Bool.not_eq_true] at hnew
    cases δ with
    | add d x => exact hs.enter hnew
    | remove r ts =>
      have hremoves : Removes r ts s
          ⟨bury s.entries ts, s.removals.insert r ts, s.context.insertAll (r :: ts.toList)⟩ := by
        refine ⟨live_bury, fun y e => ?_, rfl, ?_⟩
        · change e ∈ (bury s.entries ts).getD y .empty ↔ _
          rw [getD_bury, SortedSet.mem_diff]
          rfl
        · simp only [CausalContext.dots_insertAll, List.mem_cons, SortedSet.mem_toList]
      exact hs.removes hremoves hnew

/-- A local removal tombstones the dots of one item, which no other item has. -/
lemma WellFormed.removes_local (hs : s.WellFormed) (hpos : 0 < r.counter) :
    Removes r (s.dotsOf x) s
      ⟨s.entries.erase x, s.removals.insert r (s.dotsOf x), s.context.insert r⟩ where
  live y ds hy := by
    by_cases hyx : y = x
    · subst hyx
      simp at hy
    · exact hs.live y ds (by rwa [SortedMap.get?_erase_of_ne hyx] at hy)
  mem_dotsOf y d := by
    by_cases hyx : y = x
    · subst hyx
      simp [dotsOf, SortedMap.getD]
    · have hsame : (s.entries.erase x).getD y .empty = s.dotsOf y := by
        rw [SortedMap.getD, SortedMap.get?_erase_of_ne hyx]
        rfl
      change d ∈ (s.entries.erase x).getD y .empty ↔ _
      rw [hsame]
      exact ⟨fun hd => ⟨hd, fun hd' => hyx (hs.item_eq y x d hd hd')⟩, And.left⟩
  removals := rfl
  dots := by
    refine (CausalContext.dots_record hpos).trans ?_
    ext d
    simp only [Set.mem_union, Set.mem_singleton_iff, Set.mem_ofPred_eq]
    constructor
    · rintro (hd | rfl)
      · exact .inl hd
      · exact .inr ⟨hpos, .inl rfl⟩
    · rintro (hd | ⟨-, rfl | hd⟩)
      · exact .inl hd
      · exact .inr rfl
      · exact .inl ((hs.mem_dots d).mpr (.inl ⟨x, hd⟩))

lemma WellFormed.removeAs (hs : s.WellFormed)
    (hnew : (s.removeAs d x).2.toList ≠ [] → s.context.contains d = false) :
    (s.removeAs d x).1.WellFormed := by
  rcases s.removeAs_eq d x with heq | ⟨hempty, heq⟩ | heq <;> rw [heq] at hnew ⊢
  · exact hs
  · -- an item without dots is not in the set
    have hsame : s.entries.erase x = s.entries := by
      ext y : 1
      by_cases hyx : y = x
      · subst hyx
        rw [SortedMap.get?_erase_self]
        cases hy : s.entries.get? y with
        | none => rfl
        | some ds => exact absurd (dotsOf_of_get? hy ▸ hempty) (hs.live y ds hy)
      · exact SortedMap.get?_erase_of_ne hyx
    rwa [hsame]
  · have hfresh := hnew (List.cons_ne_nil _ _)
    exact hs.removes (hs.removes_local (CausalContext.counter_pos_of_not_contains hfresh)) hfresh

lemma HasRoom.nextWordDot_eq {a : Actor} (h : s.HasRoom a) :
    s.context.nextWordDot a = s.context.nextDot a :=
  congrArg (Dot.mk a) (Nat.mod_eq_of_lt h)

/-- Below the last word a counter is like any number. -/
lemma applyInWords_eq_apply {a : Actor} (h : s.HasRoom a) (op : OrSetOperation α) :
    Operable.applyInWords s a op = Operable.apply s a op :=
  congrArg (s.applyAs · op) h.nextWordDot_eq

lemma WellFormed.applyInWords (hs : s.WellFormed) {a : Actor} {op : OrSetOperation α}
    (hroom : (Operable.applyInWords s a op).2.2 ≠ [] → s.HasRoom a) :
    (Operable.applyInWords s a op).1.WellFormed := by
  have hfresh : s.HasRoom a → s.context.contains (s.context.nextWordDot a) = false := fun h => by
    rw [h.nextWordDot_eq]
    exact CausalContext.not_contains_nextDot
  cases op with
  | add x => exact hs.enter (hfresh (hroom (List.cons_ne_nil _ _)))
  | remove x => exact hs.removeAs fun hhanded => hfresh (hroom hhanded)

lemma Reached.wellFormed (h : Reached HasRoom s) : s.WellFormed := by
  induction h with
  | empty => exact wellFormed_empty
  | apply a op _ hroom ih => exact ih.applyInWords hroom
  | merge δ _ ih => exact ih.merge δ

/-! ### Reading -/

lemma WellFormed.contains_iff (hs : s.WellFormed) : s.contains x = true ↔ x ∈ s.items := by
  rw [mem_items, contains]
  cases hx : s.entries.get? x with
  | none => simp
  | some ds => simp [hs.live x ds hx]

lemma isEmpty_iff : s.isEmpty = true ↔ s.items = [] := by
  rw [isEmpty, SortedMap.isEmpty, List.isEmpty_iff, items, SortedMap.keys, List.map_eq_nil_iff]

/-- **Whatever is merged, a set is well formed**, as long as the actors that mint dots have counters
left. No item is without dots, so that membership, the list of items, their number and emptiness
agree. No dot is live under two items, and none that is live is the dot of a removal or a stored
tombstone. And the dots of the context are those that are live, those of removals, and the stored
tombstones that count from one. -/
theorem well_formed_whatever_is_merged (hs : Reached HasRoom s) :
    ((∀ x ds, s.entries.get? x = some ds → ds ≠ .empty) ∧ (∀ x, s.contains x = true ↔ x ∈ s.items) ∧
      s.items.Nodup ∧ s.size = s.items.length ∧ (s.isEmpty = true ↔ ∀ x, s.contains x = false)) ∧
    (∀ d x y, d ∈ s.dotsOf x → d ∈ s.dotsOf y → x = y) ∧
    (∀ d, s.IsLive d → ¬ s.IsRemoval d ∧ ¬ s.IsTombstone d) ∧
    ∀ d, d ∈ s.context.dots ↔
      s.IsLive d ∨ s.IsRemoval d ∨ (0 < d.counter ∧ s.IsTombstone d) := by
  have h := hs.wellFormed
  refine ⟨⟨h.live, fun x => h.contains_iff, SortedMap.nodup_keys _, by simp [size, items,
    SortedMap.size, SortedMap.keys], ?_⟩, fun d x y => h.item_eq x y d,
    fun d hd => ⟨h.not_removal d hd, h.not_tombstone d hd⟩, h.mem_dots⟩
  simp only [isEmpty_iff, ← Bool.not_eq_true, h.contains_iff]
  exact List.eq_nil_iff_forall_not_mem

/-- A removal that names itself, additions under its dot, under a dot it tombstones and under the
last dot of an actor, and local operations between them. -/
def clashing : OrSet Nat :=
  let s := (empty.merge (.add ⟨"a", 1⟩ 5)).1
  let s := (s.merge (.remove ⟨"b", 1⟩ (.ofList [⟨"a", 0⟩, ⟨"b", 1⟩, ⟨"c", 2⟩]))).1
  let s := (s.merge (.add ⟨"b", 1⟩ 6)).1
  let s := (s.merge (.add ⟨"c", 2⟩ 7)).1
  let s := (Operable.applyInWords s "c" (.add 6)).1
  let s := (s.merge (.add ⟨"c", 3⟩ 8)).1
  let s := (s.merge (.add ⟨"d", word64 - 1⟩ 9)).1
  (Operable.applyInWords s "a" (.remove 5)).1

theorem clashing_stays_well_formed :
    Reached HasRoom clashing ∧ clashing.items = [6, 9] ∧ clashing.contains 5 = false ∧
      clashing.contains 6 = true ∧ ¬ clashing.IsTombstone ⟨"c", 3⟩ ∧
      (⟨"c", 2⟩ : Dot) ∈ clashing.context.dots ∧ (⟨"a", 0⟩ : Dot) ∉ clashing.context.dots := by
  have hreached : Reached HasRoom clashing :=
    .apply _ _ (.merge _ (.merge _ (.apply _ _ (.merge _ (.merge _ (.merge _ (.merge _ .empty))))
      fun _ => by rw [HasRoom]; decide +kernel))) fun _ => by rw [HasRoom]; decide +kernel
  obtain ⟨⟨-, hcontains, -⟩, -, hlive, hdots⟩ := well_formed_whatever_is_merged hreached
  have hitems : clashing.items = [6, 9] := by decide +kernel
  have htombstones : clashing.removals.get? ⟨"b", 1⟩ =
      some (.ofList [⟨"a", 0⟩, ⟨"b", 1⟩, ⟨"c", 2⟩]) := by decide +kernel
  refine ⟨hreached, hitems, ?_, (hcontains 6).mpr (by simp [hitems]), ?_, ?_, fun h => ?_⟩
  · rw [← Bool.not_eq_true, hcontains, hitems]
    decide
  · exact (hlive ⟨"c", 3⟩ ⟨6, SortedSet.contains_iff.mp (by decide +kernel)⟩).2
  · exact (hdots _).mpr (.inr (.inr ⟨by decide, ⟨"b", 1⟩, _, htombstones, by simp⟩))
  · exact absurd h.1 (by decide)

def runOut : OrSet Nat :=
  let s := (empty.merge (.add ⟨"a", word64 - 1⟩ 4)).1
  let s := (Operable.applyInWords s "a" (.add 5)).1
  (Operable.applyInWords s "a" (.add 6)).1

/-- A removal may store a tombstone that counts from zero, and the context has no such dot. And two
additions by an actor whose last dot has come from elsewhere get one dot. -/
theorem first_and_last_counters_are_exceptions :
    (∃ s : OrSet Nat, Reached (fun _ _ => True) s ∧ s.IsTombstone ⟨"a", 0⟩ ∧
      (⟨"a", 0⟩ : Dot) ∉ s.context.dots) ∧
    Reached (fun _ _ => True) runOut ∧ (⟨"a", 0⟩ : Dot) ∈ runOut.dotsOf 5 ∧
      (⟨"a", 0⟩ : Dot) ∈ runOut.dotsOf 6 ∧
      ¬ ∀ d x y, d ∈ runOut.dotsOf x → d ∈ runOut.dotsOf y → x = y := by
  have hfive : (⟨"a", 0⟩ : Dot) ∈ runOut.dotsOf 5 := SortedSet.contains_iff.mp (by decide +kernel)
  have hsix : (⟨"a", 0⟩ : Dot) ∈ runOut.dotsOf 6 := SortedSet.contains_iff.mp (by decide +kernel)
  refine ⟨⟨_, .merge (.remove ⟨"b", 1⟩ (.ofList [⟨"a", 0⟩])) .empty,
      ⟨⟨"b", 1⟩, .ofList [⟨"a", 0⟩], by decide +kernel, by simp⟩, fun h => absurd h.1 (by decide)⟩,
    .apply _ _ (.apply _ _ (.merge _ .empty) fun _ => trivial) fun _ => trivial, hfive, hsix,
    fun hunique => ?_⟩
  exact absurd (hunique _ 5 6 hfive hsix) (by decide)

end DeltaRing.OrSet
