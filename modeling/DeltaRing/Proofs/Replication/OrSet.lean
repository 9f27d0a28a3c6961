import DeltaRing.OrSet
import DeltaRing.Proofs.Causal.Canonical
import DeltaRing.Proofs.Replication.Convergent

/-!
Observed-remove sets converge.

A dot is buried by a set of deltas if some removal among them tombstones it. The summary of a set
of deltas has as live dots those added and not buried, keeps every removal, and knows all dots
named. Removals tombstone only what was added, and no dot is used twice; that is all it takes for
merging to compute the summary, in whatever order the deltas come.
-/

namespace DeltaRing

variable {α : Type}

namespace OrSetDelta

variable {E X Y : Set (OrSetDelta α)} {d e : Dot} {δ : OrSetDelta α}

def Buried (X : Set (OrSetDelta α)) (d : Dot) : Prop := ∃ r ts, remove r ts ∈ X ∧ d ∈ ts

def dotsIn (X : Set (OrSetDelta α)) : Set Dot := {d | ∃ δ ∈ X, d ∈ δ.dots}

/-- No dot is used twice, and removals tombstone only what was added. -/
structure Consistent (E : Set (OrSetDelta α)) : Prop where
  counter_pos : ∀ δ ∈ E, 0 < δ.dot.counter
  dot_inj : ∀ δ ∈ E, ∀ ε ∈ E, δ.dot = ε.dot → δ = ε
  added : ∀ d, Buried E d → ∃ x, add d x ∈ E

instance : Authored (OrSetDelta α) where
  author δ := δ.dot.actor
  Coherent := Consistent

lemma mem_dots_iff : d ∈ δ.dots ↔ d = δ.dot ∨ Buried {δ} d := by
  cases δ with
  | add d' x => simp [dots, dot, Buried]
  | remove r ts =>
    simp only [dots, dot, List.mem_cons, SortedSet.mem_toList, Buried, Set.mem_singleton_iff,
      remove.injEq]
    refine or_congr_right ⟨fun h => ⟨r, ts, ⟨rfl, rfl⟩, h⟩, ?_⟩
    rintro ⟨_, _, ⟨-, rfl⟩, hd⟩
    exact hd

lemma mem_dotsIn_iff : d ∈ dotsIn X ↔ (∃ δ ∈ X, d = δ.dot) ∨ Buried X d := by
  constructor
  · rintro ⟨δ, hδ, hd⟩
    rcases mem_dots_iff.mp hd with h | ⟨r, ts, rfl, h⟩
    · exact .inl ⟨δ, hδ, h⟩
    · exact .inr ⟨r, ts, hδ, h⟩
  · rintro (⟨δ, hδ, rfl⟩ | ⟨r, ts, hr, hd⟩)
    · exact ⟨δ, hδ, mem_dots_iff.mpr (.inl rfl)⟩
    · exact ⟨_, hr, mem_dots_iff.mpr (.inr ⟨r, ts, rfl, hd⟩)⟩

lemma dot_mem_dotsIn (h : δ ∈ X) : δ.dot ∈ dotsIn X := mem_dotsIn_iff.mpr (.inl ⟨δ, h, rfl⟩)

lemma Buried.mono (h : X ⊆ Y) (hd : Buried X d) : Buried Y d := by
  obtain ⟨r, ts, hr, hd⟩ := hd
  exact ⟨r, ts, h hr, hd⟩

lemma buried_insert_add {x : α} : Buried (insert (add e x) X) d ↔ Buried X d := by
  simp [Buried]

lemma buried_insert_remove {r : Dot} {ts : SortedSet Dot} :
    Buried (insert (remove r ts) X) d ↔ Buried X d ∨ d ∈ ts := by
  constructor
  · rintro ⟨r', ts', h | h, hd⟩
    · cases h
      exact .inr hd
    · exact .inl ⟨r', ts', h, hd⟩
  · rintro (h | h)
    · exact h.mono (Set.subset_insert _ X)
    · exact ⟨r, ts, Set.mem_insert _ X, h⟩

lemma dotsIn_insert : dotsIn (insert δ X) = dotsIn X ∪ {d | d ∈ δ.dots} := by
  ext d
  simp [dotsIn, or_comm]

lemma dotsIn_union : dotsIn (X ∪ Y) = dotsIn X ∪ dotsIn Y := by
  ext d
  simp [dotsIn, or_and_right, exists_or]

/-- A dot that merged deltas make known is that of a merged delta, or of a buried addition. -/
lemma Consistent.mem_or_buried (hE : Consistent E) (hX : X ⊆ E) (hδ : δ ∈ E)
    (h : δ.dot ∈ dotsIn X) : δ ∈ X ∨ ∃ x, δ = add δ.dot x ∧ Buried X δ.dot := by
  rcases mem_dotsIn_iff.mp h with ⟨ε, hε, heq⟩ | hb
  · exact .inl (hE.dot_inj δ hδ ε (hX hε) heq ▸ hε)
  · obtain ⟨x, hx⟩ := hE.added δ.dot (hb.mono hX)
    exact .inr ⟨x, hE.dot_inj δ hδ _ hx rfl, hb⟩

lemma Consistent.insert (hE : Consistent E) (hpos : 0 < δ.dot.counter)
    (hfresh : ∀ ε ∈ E, ε.dot ≠ δ.dot) (hb : ∀ d, Buried {δ} d → ∃ x, add d x ∈ E) :
    Consistent (E ∪ {δ}) where
  counter_pos := by
    rintro ε (hε | rfl)
    · exact hE.counter_pos ε hε
    · exact hpos
  dot_inj := by
    rintro ε (hε | rfl) ζ (hζ | rfl) heq
    · exact hE.dot_inj ε hε ζ hζ heq
    · exact absurd heq (hfresh ε hε)
    · exact absurd heq.symm (hfresh ζ hζ)
    · rfl
  added := by
    rintro d ⟨r, ts, hr | hr, hd⟩
    · obtain ⟨x, hx⟩ := hE.added d ⟨r, ts, hr, hd⟩
      exact ⟨x, .inl hx⟩
    · obtain ⟨x, hx⟩ := hb d ⟨r, ts, hr, hd⟩
      exact ⟨x, .inl hx⟩

end OrSetDelta

open OrSetDelta

namespace OrSet

variable [Key α] {E X Y : Set (OrSetDelta α)} {s s' u : OrSet α} {x y : α} {d e : Dot}
  {δ : OrSetDelta α}

def dotsOf (s : OrSet α) (x : α) : SortedSet Dot := s.entries.getD x .empty

structure IsSummary (s : OrSet α) (X : Set (OrSetDelta α)) : Prop where
  mem_dotsOf : ∀ x d, d ∈ s.dotsOf x ↔ .add d x ∈ X ∧ ¬ Buried X d
  /-- An item without live dots is out of the set. -/
  live : ∀ x ds, s.entries.get? x = some ds → ds ≠ .empty
  removals : ∀ r ts, s.removals.get? r = some ts ↔ .remove r ts ∈ X
  context : s.context.Represents (dotsIn X)

instance : Summary (OrSet α) (OrSetDelta α) := ⟨IsSummary⟩

@[simp] lemma timestamp_eq : timestamp s = s.context := rfl

omit [Key α] in
@[simp] lemma reflects_eq {c : CausalContext} : reflects c δ = c.contains δ.dot := rfl

lemma dotsOf_of_get? {ds : SortedSet Dot} (h : s.entries.get? x = some ds) : s.dotsOf x = ds := by
  simp [dotsOf, SortedMap.getD, h]

lemma mem_items : x ∈ s.items ↔ (s.entries.get? x).isSome := SortedMap.mem_keys

lemma entries_ext (h : ∀ x ds, s.entries.get? x = some ds → ds ≠ .empty)
    (h' : ∀ x ds, s'.entries.get? x = some ds → ds ≠ .empty)
    (hd : ∀ x, s.dotsOf x = s'.dotsOf x) : s.entries = s'.entries := by
  ext x : 1
  have hx := hd x
  unfold dotsOf SortedMap.getD at hx
  cases hs : s.entries.get? x with
  | none =>
    cases hs' : s'.entries.get? x with
    | none => rfl
    | some ds => exact absurd (by simpa [hs, hs'] using hx.symm) (h' x ds hs')
  | some ds =>
    cases hs' : s'.entries.get? x with
    | none => exact absurd (by simpa [hs, hs'] using hx) (h x ds hs)
    | some ds' => simpa [hs, hs'] using hx

lemma IsSummary.eq (h : s.IsSummary X) (h' : s'.IsSummary X) : s = s' := by
  have hentries : s.entries = s'.entries := by
    refine entries_ext h.live h'.live fun x => ?_
    ext d
    rw [h.mem_dotsOf, h'.mem_dotsOf]
  have hremovals : s.removals = s'.removals := by
    ext r ts
    rw [h.removals, h'.removals]
  have hcontext : s.context = s'.context := h.context.eq h'.context
  obtain ⟨_, _, _⟩ := s
  obtain ⟨_, _, _⟩ := s'
  simp only at hentries hremovals hcontext
  rw [hentries, hremovals, hcontext]

lemma IsSummary.contains_iff (h : s.IsSummary X) (hd : 0 < d.counter) :
    s.context.contains d = true ↔ d ∈ dotsIn X := h.context.contains_iff d hd

/-! ### Merging -/

lemma mem_dotsOf_enter :
    e ∈ (s.enter d x).dotsOf y ↔ e ∈ s.dotsOf y ∨ (e = d ∧ y = x) := by
  simp only [enter, dotsOf, SortedMap.getD]
  by_cases hy : y = x
  · subst hy
    simp [or_comm]
  · simp [SortedMap.get?_alter_of_ne hy, hy]

lemma get?_bury {entries : SortedMap α (SortedSet Dot)} {ts : SortedSet Dot} :
    (bury entries ts).get? x =
      ((entries.get? x).map (·.diff ts)).filter fun ds => !ds.isEmpty := by
  simp [bury]

lemma getD_bury {entries : SortedMap α (SortedSet Dot)} {ts : SortedSet Dot} :
    (bury entries ts).getD x .empty = (entries.getD x .empty).diff ts := by
  rw [SortedMap.getD, SortedMap.getD, get?_bury]
  cases entries.get? x with
  | none =>
    ext d
    simp
  | some ds =>
    by_cases h : ds.diff ts = .empty <;> simp [Option.filter, h]

lemma live_enter (h : ∀ y ds, s.entries.get? y = some ds → ds ≠ .empty) :
    ∀ y ds, (s.enter d x).entries.get? y = some ds → ds ≠ .empty := by
  intro y ds hy
  by_cases hyx : y = x
  · subst hyx
    simp only [enter, SortedMap.get?_alter_self, Option.some.injEq] at hy
    rintro rfl
    have : d ∈ (SortedSet.empty : SortedSet Dot) := by
      rw [← hy]
      simp
    simp at this
  · simp only [enter, SortedMap.get?_alter_of_ne hyx] at hy
    exact h y ds hy

lemma live_bury {entries : SortedMap α (SortedSet Dot)} {ts : SortedSet Dot} :
    ∀ y ds, (bury entries ts).get? y = some ds → ds ≠ .empty := by
  intro y ds hy
  rw [get?_bury, Option.filter_eq_some_iff] at hy
  simpa using hy.2

/-- A delta whose dot is known says nothing new. -/
lemma IsSummary.insert_of_contains (hE : Consistent E) (hX : X ⊆ E) (hδ : δ ∈ E)
    (h : s.IsSummary X) (hknown : s.context.contains δ.dot = true) :
    s.IsSummary (insert δ X) := by
  have hdot := (h.contains_iff (hE.counter_pos δ hδ)).mp hknown
  rcases hE.mem_or_buried hX hδ hdot with hmem | ⟨x, heq, hb⟩
  · rwa [Set.insert_eq_of_mem hmem]
  · rw [heq]
    refine ⟨fun y e => ?_, h.live, fun r ts => ?_, h.context.congr fun e => ?_⟩
    · rw [h.mem_dotsOf, buried_insert_add, Set.mem_insert_iff, OrSetDelta.add.injEq]
      constructor
      · exact fun ⟨hadd, hlive⟩ => ⟨.inr hadd, hlive⟩
      · rintro ⟨⟨rfl, -⟩ | hadd, hlive⟩
        · exact absurd hb hlive
        · exact ⟨hadd, hlive⟩
    · rw [h.removals]
      simp
    · rw [dotsIn_insert]
      simp only [dots, List.mem_singleton, Set.mem_union, Set.mem_ofPred_eq]
      exact ⟨.inl, fun he => he.elim id fun he => he ▸ hdot⟩

lemma IsSummary.merge_add (hE : Consistent E) (hX : X ⊆ E) (hδ : .add d x ∈ E)
    (h : s.IsSummary X) : (s.merge (.add d x)).1.IsSummary (insert (.add d x) X) := by
  unfold OrSet.merge
  split
  · rename_i hknown
    exact h.insert_of_contains hE hX hδ hknown
  · rename_i hnew
    rw [h.contains_iff (hE.counter_pos _ hδ)] at hnew
    refine ⟨fun y e => ?_, live_enter h.live, fun r ts => ?_, ?_⟩
    · -- the new dot is not buried, for it would be known
      have hd : ¬ Buried X d := fun hb => hnew (mem_dotsIn_iff.mpr (.inr hb))
      rw [mem_dotsOf_enter, h.mem_dotsOf, buried_insert_add, Set.mem_insert_iff,
        OrSetDelta.add.injEq]
      constructor
      · rintro (⟨hadd, hlive⟩ | ⟨rfl, rfl⟩)
        · exact ⟨.inr hadd, hlive⟩
        · exact ⟨.inl ⟨rfl, rfl⟩, hd⟩
      · rintro ⟨⟨rfl, rfl⟩ | hadd, hlive⟩
        · exact .inr ⟨rfl, rfl⟩
        · exact .inl ⟨hadd, hlive⟩
    · change s.removals.get? r = some ts ↔ _
      rw [h.removals]
      simp
    · rw [dotsIn_insert]
      exact h.context.insertAll [d]

lemma IsSummary.merge_remove {r : Dot} {ts : SortedSet Dot} (hE : Consistent E) (hX : X ⊆ E)
    (hδ : .remove r ts ∈ E) (h : s.IsSummary X) :
    (s.merge (.remove r ts)).1.IsSummary (insert (.remove r ts) X) := by
  unfold OrSet.merge
  split
  · rename_i hknown
    exact h.insert_of_contains hE hX hδ hknown
  · rename_i hnew
    rw [h.contains_iff (hE.counter_pos _ hδ)] at hnew
    refine ⟨fun y e => ?_, live_bury, fun r' ts' => ?_, ?_⟩
    · change e ∈ (bury s.entries ts).getD y .empty ↔ _
      rw [getD_bury, SortedSet.mem_diff, ← dotsOf, h.mem_dotsOf, buried_insert_remove]
      simp only [Set.mem_insert_iff, reduceCtorEq, false_or]
      tauto
    · change (s.removals.insert r ts).get? r' = some ts' ↔ _
      rw [Set.mem_insert_iff, OrSetDelta.remove.injEq]
      by_cases hr : r' = r
      · subst hr
        have hout : .remove r' ts' ∉ X := fun hmem =>
          hnew (dot_mem_dotsIn (δ := .remove r' ts') hmem)
        simp [hout, eq_comm]
      · rw [SortedMap.get?_insert_of_ne hr, h.removals]
        simp [hr]
    · rw [dotsIn_insert]
      exact h.context.insertAll (r :: ts.toList)

lemma IsSummary.merge (hE : Consistent E) (hX : X ⊆ E) (hδ : δ ∈ E) (h : s.IsSummary X) :
    (s.merge δ).1.IsSummary (insert δ X) := by
  cases δ with
  | add d x => exact h.merge_add hE hX hδ
  | remove r ts => exact h.merge_remove hE hX hδ

lemma isSummary_empty : (empty : OrSet α).IsSummary ∅ where
  mem_dotsOf x d := by simp [dotsOf, empty, SortedMap.getD]
  live x ds h := by simp [empty] at h
  removals r ts := by simp [empty]
  context := CausalContext.represents_empty.congr fun d => by simp [dotsIn]

/-! ### Operations -/

lemma IsSummary.dot_ne_nextDot (hE : Consistent E) (h : s.IsSummary X) {a : Actor}
    (hown : ∀ δ ∈ E, author δ = a → δ ∈ X) : ∀ δ ∈ E, δ.dot ≠ s.context.nextDot a := by
  intro δ hδ heq
  have ha : author δ = a := congrArg Dot.actor heq
  have := (h.contains_iff (hE.counter_pos δ hδ)).mpr (dot_mem_dotsIn (hown δ hδ ha))
  rw [heq, CausalContext.not_contains_nextDot] at this
  cases this

lemma IsSummary.handsOut_add (hE : Consistent E) (h : s.IsSummary X) {a : Actor}
    (hown : ∀ δ ∈ E, author δ = a → δ ∈ X) :
    HandsOut E a s (s.add a x).1 [(s.add a x).2] := by
  have hfresh := h.dot_ne_nextDot hE hown
  refine HandsOut.one ?_ (hE.insert (Nat.succ_pos _) hfresh ?_) rfl fun hmem => hfresh _ hmem rfl
  · change _ = (OrSet.merge s (.add (s.context.nextDot a) x)).1
    unfold OrSet.merge
    simp [OrSet.add, addAs, dot, CausalContext.not_contains_nextDot]
  · rintro d ⟨r, ts, hr, -⟩
    cases hr

/-- Without its tombstones no other item loses a dot. -/
lemma IsSummary.bury_dotsOf (hE : Consistent E) (hX : X ⊆ E) (h : s.IsSummary X)
    {ts : SortedSet Dot} (hts : s.entries.get? x = some ts) :
    bury s.entries ts = s.entries.erase x := by
  ext y : 1
  rw [get?_bury]
  by_cases hy : y = x
  · subst hy
    simp [hts, SortedSet.diff_self, Option.filter]
  · rw [SortedMap.get?_erase_of_ne hy]
    cases hget : s.entries.get? y with
    | none => rfl
    | some ds =>
      have hdisjoint : ∀ d ∈ ds, d ∉ ts := by
        intro d hd hd'
        rw [← dotsOf_of_get? hget] at hd
        rw [← dotsOf_of_get? hts] at hd'
        have hadd := hX ((h.mem_dotsOf y d).mp hd).1
        have hadd' := hX ((h.mem_dotsOf x d).mp hd').1
        have := hE.dot_inj _ hadd _ hadd' rfl
        rw [OrSetDelta.add.injEq] at this
        exact hy this.2
      simp [SortedSet.diff_of_disjoint hdisjoint, Option.filter, h.live y ds hget]

lemma IsSummary.handsOut_remove (hE : Consistent E) (hX : X ⊆ E) (h : s.IsSummary X) {a : Actor}
    (hown : ∀ δ ∈ E, author δ = a → δ ∈ X) :
    HandsOut E a s (s.remove a x).1 (s.remove a x).2.toList := by
  unfold OrSet.remove removeAs
  cases hts : s.entries.get? x with
  | none => exact HandsOut.nothing hE
  | some ts =>
    have hne := h.live x ts hts
    have hfresh := h.dot_ne_nextDot hE hown
    have hadded : ∀ d ∈ ts, .add d x ∈ X ∧ ¬ Buried X d := fun d hd => by
      rwa [← dotsOf_of_get? hts, h.mem_dotsOf] at hd
    simp only [SortedSet.isEmpty_iff, hne, if_false, Option.toList_some]
    refine HandsOut.one ?_ (hE.insert (Nat.succ_pos _) hfresh ?_) rfl
      fun hmem => hfresh _ hmem rfl
    · -- the tombstones are known already
      have hknown : s.context.insertAll (s.context.nextDot a :: ts.toList)
          = s.context.insert (s.context.nextDot a) := by
        rw [CausalContext.insertAll_cons]
        refine CausalContext.insertAll_of_contains fun d hd => ?_
        have hmem := (hadded d hd).1
        have := (h.contains_iff (hE.counter_pos _ (hX hmem))).mpr (dot_mem_dotsIn hmem)
        exact CausalContext.contains_insert.mpr (.inl this)
      change _ = (OrSet.merge s (.remove (s.context.nextDot a) ts)).1
      unfold OrSet.merge
      simp [dot, dots, CausalContext.not_contains_nextDot, hknown, h.bury_dotsOf hE hX hts]
    · rintro d ⟨r, ts', hr, hd⟩
      cases hr
      exact ⟨x, hX (hadded d hd).1⟩

/-- A removal tombstones only what its replica has observed. -/
lemma mem_dotsOf_of_remove {a : Actor} {r : Dot} {ts : SortedSet Dot}
    (h : (s.remove a x).2 = some (.remove r ts)) (hd : d ∈ ts) : d ∈ s.dotsOf x := by
  unfold OrSet.remove removeAs at h
  split at h
  · cases h
  · rename_i ts' hts
    simp only at h
    split at h
    · cases h
    · cases h
      rwa [dotsOf_of_get? hts]

/-! ### Listing what another lacks -/

lemma mem_deltasSince {since : Option CausalContext} : δ ∈ s.deltasSince since ↔
    (∀ c ∈ since, c.contains δ.dot = false) ∧
      match δ with
      | .add d x => d ∈ s.dotsOf x
      | .remove r ts => s.removals.get? r = some ts := by
  have hunseen : ∀ d : Dot, (!since.any fun c => c.contains d) = true ↔
      ∀ c ∈ since, c.contains d = false := by
    cases since <;> simp
  unfold deltasSince
  simp only [List.mem_append, List.mem_filterMap, List.mem_flatMap, List.mem_map,
    List.mem_filter, hunseen, SortedSet.mem_toList, Prod.exists, Option.ite_none_right_eq_some,
    Option.some.injEq, SortedMap.mem_entries_iff]
  cases δ with
  | add d x =>
    simp only [reduceCtorEq, and_false, exists_false, false_or, OrSetDelta.add.injEq, dot]
    constructor
    · rintro ⟨_, ds, hds, _, ⟨hd, hc⟩, rfl, rfl⟩
      exact ⟨hc, by rwa [dotsOf_of_get? hds]⟩
    · rintro ⟨hc, hd⟩
      cases hds : s.entries.get? x with
      | none => simp [dotsOf, SortedMap.getD, hds] at hd
      | some ds => exact ⟨x, ds, hds, d, ⟨by rwa [dotsOf_of_get? hds] at hd, hc⟩, rfl, rfl⟩
  | remove r ts =>
    simp only [reduceCtorEq, and_false, exists_false, or_false, OrSetDelta.remove.injEq, dot]
    constructor
    · rintro ⟨_, _, hts, hc, rfl, rfl⟩
      exact ⟨hc, hts⟩
    · rintro ⟨hc, hts⟩
      exact ⟨r, ts, hts, hc, rfl, rfl⟩

lemma IsSummary.mem_of_mem_deltasSince (h : s.IsSummary X) {since : Option CausalContext}
    (hδ : δ ∈ s.deltasSince since) : δ ∈ X := by
  have hδ := (mem_deltasSince.mp hδ).2
  cases δ with
  | add d x => exact ((h.mem_dotsOf x d).mp hδ).1
  | remove r ts => exact (h.removals r ts).mp hδ

/-- A buried addition is not listed, but a removal that buries it is, or is reflected. -/
lemma IsSummary.contains_of_deltasSince (hE : Consistent E) (hX : X ⊆ E) (hY : Y ⊆ E)
    (h : s.IsSummary X) (hu : u.IsSummary Y) {since : Option CausalContext}
    (hsince : ∀ c ∈ since, ∀ δ ∈ E, c.contains δ.dot = true → u.context.contains δ.dot = true)
    (hlisted : ∀ δ ∈ s.deltasSince since, δ ∈ Y) (hδ : δ ∈ X) :
    u.context.contains δ.dot = true := by
  have hknown : ∀ ε ∈ E, ε.dot ∈ dotsIn Y → u.context.contains ε.dot = true := fun ε hε hd =>
    (hu.contains_iff (hE.counter_pos ε hε)).mpr hd
  by_cases hseen : ∀ c ∈ since, c.contains δ.dot = false
  · cases δ with
    | remove r ts =>
      have hmem := hlisted _ (mem_deltasSince.mpr ⟨hseen, (h.removals r ts).mpr hδ⟩)
      exact hknown _ (hX hδ) (dot_mem_dotsIn hmem)
    | add d x =>
      by_cases hb : Buried X d
      · obtain ⟨r, ts, hr, hd⟩ := hb
        have hrY : .remove r ts ∈ Y := by
          by_cases hseen' : ∀ c ∈ since, c.contains r = false
          · exact hlisted _ (mem_deltasSince.mpr ⟨hseen', (h.removals r ts).mpr hr⟩)
          · push Not at hseen'
            obtain ⟨c, hc, hcr⟩ := hseen'
            have hur := hsince c hc _ (hX hr) (by simpa [dot] using hcr)
            have hrdots := (hu.contains_iff (hE.counter_pos _ (hX hr))).mp hur
            rcases hE.mem_or_buried hY (hX hr) hrdots with hmem | ⟨y, hy, -⟩
            · exact hmem
            · cases hy
        exact hknown _ (hX hδ) (mem_dotsIn_iff.mpr (.inr ⟨r, ts, hrY, hd⟩))
      · have hmem := hlisted _ (mem_deltasSince.mpr ⟨hseen, (h.mem_dotsOf x d).mpr ⟨hδ, hb⟩⟩)
        exact hknown _ (hX hδ) (dot_mem_dotsIn hmem)
  · push Not at hseen
    obtain ⟨c, hc, hcδ⟩ := hseen
    exact hsince c hc δ (hX hδ) (by simpa using hcδ)

/-! ### The laws -/

instance : Convergent (OrSet α) where
  coherent_empty := ⟨by simp, by simp, by simp [Buried]⟩
  summarizes_initial := isSummary_empty
  summarizes_unique _ _ h h' := IsSummary.eq h h'
  summarizes_merge hE hX hδ h := IsSummary.merge hE hX hδ h
  merge_of_reflects h := by
    change OrSet.merge _ _ = _
    unfold OrSet.merge
    exact if_pos h
  reflects_of_mem hE hX h hδ :=
    (IsSummary.contains_iff h (hE.counter_pos _ (hX hδ))).mpr (dot_mem_dotsIn hδ)
  not_reflects_initial hE hδ := by
    have hinitial : (empty : OrSet α).IsSummary ∅ := isSummary_empty
    rw [timestamp_eq, reflects_eq, ← Bool.not_eq_true]
    exact fun h => by simpa [dotsIn] using (hinitial.contains_iff (hE.counter_pos _ hδ)).mp h
  mem_of_mem_deltasSince h hδ := IsSummary.mem_of_mem_deltasSince h hδ
  reflects_of_deltasSince hE hX hY h hu hsince hlisted hδ :=
    IsSummary.contains_of_deltasSince hE hX hY h hu hsince hlisted hδ
  timestamp_union _ _ _ h h' hu := by
    have hjoin := (IsSummary.context h).merge (IsSummary.context h')
    exact (IsSummary.context hu).eq (hjoin.congr fun d => by rw [dotsIn_union])

instance : HandsOutCoherently (OrSet α) where
  handsOut_apply {E X s a op} hE hX h hown := by
    cases op with
    | add x => exact IsSummary.handsOut_add hE h hown
    | remove x => exact IsSummary.handsOut_remove hE hX h hown

end OrSet

end DeltaRing
