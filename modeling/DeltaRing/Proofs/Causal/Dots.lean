import DeltaRing.Proofs.Causal.Canonical
import Mathlib.Data.List.Nodup
import Mathlib.Data.Set.Card

/-!
The set of dots behind a context.

Recording, merging and minting act on the dots that a context contains, whatever the context looks
like; one that was read from elsewhere need not be compact. What is built from the empty context is
canonical: its frontiers and its cloud name every dot once, so that counting them counts the dots,
and contexts with the same dots are the same.
-/

namespace DeltaRing.CausalContext

variable {c c' : CausalContext} {d : Dot}

/-- The dots that the context contains. Counters begin at 1: what lies below counts as contained
everywhere. -/
def dots (c : CausalContext) : Set Dot := {d | 0 < d.counter ∧ c.contains d = true}

/-- Contexts that come from the empty one, in whatever order dots and contexts are taken in. -/
inductive Built : CausalContext → Prop
  | empty : Built empty
  | record {c : CausalContext} (d : Dot) : Built c → Built (c.record d).1
  | merge {c c' : CausalContext} : Built c → Built c' → Built (c.merge c')
  | join {c c' : CausalContext} : Built c → Built c' → Built (Lattice.join c c')

lemma mem_dots : d ∈ c.dots ↔ 0 < d.counter ∧ c.contains d = true := Iff.rfl

/-! ### Operations on the set -/

lemma dots_empty : empty.dots = ∅ := by
  ext d
  rw [mem_dots, Set.mem_empty_iff_false, iff_false]
  exact fun ⟨hpos, hd⟩ => by simp [not_contains_empty hpos] at hd

lemma dots_record (hd : 0 < d.counter) : (c.record d).1.dots = c.dots ∪ {d} := by
  ext e
  change 0 < e.counter ∧ (c.insert d).contains e = true ↔ _
  rw [contains_insert, and_or_left]
  refine or_congr_right ⟨And.right, fun he => ⟨?_, he⟩⟩
  exact (Set.mem_singleton_iff.mp he) ▸ hd

lemma dots_insertAll {l : List Dot} :
    (c.insertAll l).dots = c.dots ∪ {d | 0 < d.counter ∧ d ∈ l} := by
  ext d
  simp only [Set.mem_union, mem_dots, Set.mem_ofPred_eq, contains_insertAll, and_or_left]

/-- Only dots that count from one can be absent. -/
lemma counter_pos_of_not_contains (h : c.contains d = false) : 0 < d.counter := by
  by_contra hzero
  rw [contains_iff.mpr (.inl (by omega))] at h
  cases h

lemma record_snd : (c.record d).2 = !c.contains d := by
  rw [record]
  split
  · rename_i h
    simp [h]
  · rename_i h
    split <;> simp [h]

lemma dots_merge : (c.merge c').dots = c.dots ∪ c'.dots := by
  ext d
  simp only [Set.mem_union, mem_dots, contains_merge, and_or_left]

lemma Canonical.eq_of_dots (h : c.Canonical) (h' : c'.Canonical) (hd : c.dots = c'.dots) :
    c = c' := by
  refine h.ext h' fun d hpos => ?_
  have hmem : d ∈ c.dots ↔ d ∈ c'.dots := by rw [hd]
  simpa [mem_dots, hpos] using hmem

lemma Built.canonical (h : Built c) : c.Canonical := by
  induction h with
  | empty => exact canonical_empty
  | record d _ ih => exact canonical_insert ih
  | merge _ _ ih ih' => exact canonical_merge ih ih'
  | join _ _ ih ih' => exact canonical_merge ih ih'

/-! ### Counting dots -/

def listing (c : CausalContext) : List Dot :=
  c.frontier.entries.flatMap (fun e => (List.range' 1 e.2).map (Dot.mk e.1)) ++ c.cloud.toList

lemma length_listing (c : CausalContext) : c.listing.length = c.dotCount := by
  rw [listing, List.length_append, dotCount, SortedMap.values]
  refine congrArg (· + c.cloud.size) ?_
  induction c.frontier.entries with
  | nil => rfl
  | cons e l ih => simp [total, ih]

lemma Canonical.mem_listing (h : c.Canonical) : d ∈ c.listing ↔ d ∈ c.dots := by
  have hfrontier : (∃ e ∈ c.frontier.entries, d ∈ (List.range' 1 e.2).map (Dot.mk e.1)) ↔
      0 < d.counter ∧ d.counter ≤ c.frontierOf d.actor := by
    simp only [List.mem_map, List.mem_range'_1, Prod.exists, SortedMap.mem_entries_iff]
    constructor
    · rintro ⟨a, n, hn, m, hm, rfl⟩
      simp only [frontierOf, SortedMap.getD, hn, Option.getD_some]
      omega
    · rintro ⟨hpos, hle⟩
      cases hn : c.frontier.get? d.actor with
      | none => simp only [frontierOf, SortedMap.getD, hn, Option.getD_none] at hle; omega
      | some n =>
        simp only [frontierOf, SortedMap.getD, hn, Option.getD_some] at hle
        exact ⟨d.actor, n, hn, d.counter, by omega, rfl⟩
  rw [listing, List.mem_append, List.mem_flatMap, hfrontier, mem_dots, contains_iff, and_or_left,
    SortedSet.mem_toList]
  refine or_congr_right ⟨fun hd => ⟨?_, hd⟩, And.right⟩
  have := h.cloud_beyond d hd
  omega

lemma Canonical.nodup_listing (h : c.Canonical) : c.listing.Nodup := by
  refine List.Nodup.append ?_ c.cloud.nodup_toList ?_
  · refine SortedMap.nodup_flatMap_entries (fun e => ?_) fun e e' d hd hd' => ?_
    · exact List.Nodup.map (fun m n hmn => congrArg Dot.counter hmn) (List.nodup_range' 1)
    · obtain ⟨_, -, rfl⟩ := List.mem_map.mp hd
      obtain ⟨_, -, heq⟩ := List.mem_map.mp hd'
      exact congrArg Dot.actor heq.symm
  · intro d hd hcloud
    obtain ⟨⟨a, n⟩, he, hd⟩ := List.mem_flatMap.mp hd
    obtain ⟨m, hm, rfl⟩ := List.mem_map.mp hd
    have hn := SortedMap.mem_entries_iff.mp he
    have hbeyond := h.cloud_beyond _ hcloud
    rw [List.mem_range'_1] at hm
    simp only [frontierOf, SortedMap.getD, hn, Option.getD_some] at hbeyond
    omega

lemma Canonical.encard_dots (h : c.Canonical) : c.dots.encard = c.dotCount := by
  have hlisting : c.dots = ↑c.listing.toFinset := by
    ext d
    rw [List.coe_toFinset, Set.mem_ofPred_eq, h.mem_listing]
  rw [hlisting, Set.encard_coe_eq_coe_finsetCard, List.toFinset_card_of_nodup h.nodup_listing,
    length_listing]

/-- **A context is a canonical set of dots.** To record a dot adds exactly this dot, and tells
whether it was absent; to merge is to unite; and a minted dot is beyond all of its actor. Contexts
that are built from the empty one are canonical, count their dots, and are equal if they have the
same dots. -/
theorem contexts_are_sets_of_dots :
    (∀ (c : CausalContext) (d : Dot), 0 < d.counter →
      (c.record d).1.dots = c.dots ∪ {d} ∧ ((c.record d).2 = true ↔ d ∉ c.dots)) ∧
    (∀ c c' : CausalContext,
      (c.merge c').dots = c.dots ∪ c'.dots ∧ (Lattice.join c c').dots = c.dots ∪ c'.dots) ∧
    (∀ (c : CausalContext) (a : Actor), (c.nextDot a).actor = a ∧
      ∀ d ∈ c.dots, d.actor = a → d.counter < (c.nextDot a).counter) ∧
    (∀ c : CausalContext, Built c → c.Canonical ∧ c.dots.encard = c.dotCount) ∧
    ∀ c c' : CausalContext, Built c → Built c' → c.dots = c'.dots → c = c' := by
  refine ⟨fun c d hpos => ⟨dots_record hpos, ?_⟩, fun c c' => ⟨dots_merge, dots_merge⟩,
    fun c a => ⟨rfl, ?_⟩, fun c h => ⟨h.canonical, h.canonical.encard_dots⟩,
    fun c c' h h' => h.canonical.eq_of_dots h'.canonical⟩
  · simp [record_snd, mem_dots, hpos]
  · rintro d ⟨-, hd⟩ rfl
    exact counter_lt_nextDot hd

/-- A context read from elsewhere: a frontier of zero, and a cloud with a gap after its first
dot. -/
def loose : CausalContext := ⟨.ofList [("a", 0)], .ofList [⟨"a", 1⟩, ⟨"a", 3⟩]⟩

theorem merged_as_recorded :
    let left := empty.insertAll [⟨"a", 1⟩, ⟨"a", 3⟩]
    let right := empty.insertAll [⟨"a", 2⟩, ⟨"b", 2⟩]
    let direct := empty.insertAll [⟨"b", 2⟩, ⟨"a", 3⟩, ⟨"a", 2⟩, ⟨"a", 1⟩]
    ¬ loose.Canonical ∧ (loose.record ⟨"a", 2⟩).1.dots = loose.dots ∪ {⟨"a", 2⟩} ∧
      left.merge right = direct ∧ direct.dots.encard = 4 := by
  intro left right direct
  obtain ⟨hrecord, hmerge, -, hbuilt, heq⟩ := contexts_are_sets_of_dots
  have hleft : left.Built := .record _ (.record _ .empty)
  have hright : right.Built := .record _ (.record _ .empty)
  have hdirect : direct.Built := .record _ (.record _ (.record _ (.record _ .empty)))
  have hinsert : ∀ (c : CausalContext) (d : Dot), 0 < d.counter →
      (c.insert d).dots = c.dots ∪ {d} := fun c d hpos => (hrecord c d hpos).1
  refine ⟨fun h => ?_, (hrecord loose _ (by decide)).1, heq _ _ (hleft.merge hright) hdirect ?_,
    (hbuilt direct hdirect).2.trans ?_⟩
  · exact absurd (h.frontier_pos "a" 0 (by decide)) (by decide)
  · rw [(hmerge left right).1]
    simp (disch := decide) only [left, right, direct, insertAll, List.foldl_cons, List.foldl_nil,
      hinsert, dots_empty]
    ext d
    simp only [Set.mem_union, Set.mem_empty_iff_false, Set.mem_singleton_iff]
    tauto
  · have hcount : direct.dotCount = 4 := by decide +kernel
    rw [hcount]
    rfl

end DeltaRing.CausalContext
