import DeltaRing.Causal.Context
import DeltaRing.Proofs.Collections.SortedMap
import DeltaRing.Proofs.Collections.SortedSet
import Mathlib.Data.Set.Basic

/-!
Causal contexts as sets of dots.

`insert` and `merge` act on the dots that a context contains as insertion and union do on sets.
A canonical context is determined by its dots, and everything built from the empty context is
canonical. Compaction is what keeps it so: it moves dots between cloud and frontier and changes
nothing about what is contained.
-/

namespace DeltaRing

lemma Dot.before_iff {d e : Dot} (h : d.actor = e.actor) :
    Key.Before d e ↔ d.counter < e.counter := by
  have hc : compare d e = (compare d.actor e.actor).then (compare d.counter e.counter) := rfl
  rw [Key.Before, hc, h, Key.compare_self, Ordering.eq_then, Nat.compare_eq_lt]

namespace CausalContext

variable {c c' : CausalContext} {a b : Actor} {d e : Dot} {n : Nat}

lemma contains_iff : c.contains d = true ↔ d.counter ≤ c.frontierOf d.actor ∨ d ∈ c.cloud := by
  simp [contains]

/-! ### The cloud of one actor -/

lemma not_contains_empty (h : 0 < d.counter) : empty.contains d = false := by
  simp [contains, frontierOf, empty, SortedMap.getD, Nat.ne_of_gt h]

lemma mem_cloudOf : n ∈ c.cloudOf a ↔ (⟨a, n⟩ : Dot) ∈ c.cloud := by
  simp only [cloudOf, List.mem_map, List.mem_filter, SortedSet.mem_toList, decide_eq_true_eq]
  constructor
  · rintro ⟨⟨_, _⟩, ⟨h, rfl⟩, rfl⟩
    exact h
  · exact fun h => ⟨_, ⟨h, rfl⟩, rfl⟩

lemma sorted_cloudOf (c : CausalContext) (a : Actor) : (c.cloudOf a).Pairwise (· < ·) := by
  rw [cloudOf, List.pairwise_map, List.pairwise_filter]
  refine c.cloud.sorted.imp fun h ha hb => ?_
  simp only [decide_eq_true_eq] at ha hb
  exact (Dot.before_iff (ha.trans hb.symm)).mp h

/-! ### Extending a frontier -/

lemma extend_cons (f n : Nat) (l : List Nat) :
    extend f (n :: l) = extend (if n = f + 1 then n else f) l := rfl

lemma le_extend (f : Nat) (l : List Nat) : f ≤ extend f l := by
  induction l generalizing f with
  | nil => exact le_refl f
  | cons n l ih =>
    rw [extend_cons]
    refine le_trans ?_ (ih _)
    split <;> omega

/-- Whatever the extended frontier covers beyond the old one was in the list. -/
lemma mem_of_le_extend {f : Nat} {l : List Nat} (hf : f < n) (h : n ≤ extend f l) : n ∈ l := by
  induction l generalizing f with
  | nil => exact absurd hf (not_lt.mpr h)
  | cons m l ih =>
    rw [extend_cons] at h
    by_cases hm : n = m
    · simp [hm]
    · refine List.mem_cons_of_mem _ (ih ?_ h)
      split <;> omega

/-- An extended frontier stops where the list has a gap. -/
lemma succ_extend_notMem {f : Nat} {l : List Nat} (hl : l.Pairwise (· < ·)) :
    extend f l + 1 ∉ l := by
  induction l generalizing f with
  | nil => simp
  | cons m l ih =>
    obtain ⟨hlt, hl⟩ := List.pairwise_cons.mp hl
    rw [extend_cons, List.mem_cons, not_or]
    refine ⟨?_, ih hl⟩
    split
    · have := le_extend m l
      omega
    · -- a frontier that got to `m - 1` would have met it in the rest of the list
      rename_i hm
      intro heq
      rcases Nat.lt_or_ge f (extend f l) with h | h
      · have := hlt _ (mem_of_le_extend h (le_refl _))
        omega
      · have := le_extend f l
        omega

/-! ### Compaction -/

/-- How far compaction moves the frontier of an actor. -/
def reach (c : CausalContext) (a : Actor) : Nat := extend (c.frontierOf a) (c.cloudOf a)

lemma frontierOf_le_reach : c.frontierOf a ≤ c.reach a := le_extend _ _

lemma frontierOf_compact_self : (c.compact a).frontierOf a = c.reach a := by
  have hle := frontierOf_le_reach (c := c) (a := a)
  change SortedMap.getD (if 0 < c.reach a then c.frontier.insert a (c.reach a) else c.frontier) a 0
    = c.reach a
  split
  · simp [SortedMap.getD]
  · change c.frontierOf a = _
    omega

lemma frontierOf_compact_of_ne (h : b ≠ a) : (c.compact a).frontierOf b = c.frontierOf b := by
  change SortedMap.getD (if 0 < c.reach a then c.frontier.insert a (c.reach a) else c.frontier) b 0
    = SortedMap.getD c.frontier b 0
  split
  · rw [SortedMap.getD, SortedMap.get?_insert_of_ne h]
    rfl
  · rfl

lemma mem_cloud_compact :
    d ∈ (c.compact a).cloud ↔ d ∈ c.cloud ∧ (d.actor = a → c.reach a < d.counter) := by
  simp only [compact, SortedSet.mem_filter, Bool.not_eq_true', Bool.and_eq_false_imp,
    decide_eq_true_eq, decide_eq_false_iff_not, not_le]
  rfl

/-- **Compaction is invisible**: it changes no answer of `contains`. -/
lemma contains_compact : (c.compact a).contains d = c.contains d := by
  rw [Bool.eq_iff_iff, contains_iff, contains_iff, mem_cloud_compact]
  by_cases h : d.actor = a
  · subst h
    rw [frontierOf_compact_self]
    have hle := frontierOf_le_reach (c := c) (a := d.actor)
    have hcloud : c.frontierOf d.actor < d.counter → d.counter ≤ c.reach d.actor →
        d ∈ c.cloud := fun hf hr => mem_cloudOf.mp (mem_of_le_extend hf hr)
    constructor
    · rintro (hr | ⟨hd, -⟩)
      · rcases Nat.lt_or_ge (c.frontierOf d.actor) d.counter with hf | hf
        · exact .inr (hcloud hf hr)
        · exact .inl hf
      · exact .inr hd
    · rintro (hf | hd)
      · exact .inl (le_trans hf hle)
      · rcases Nat.lt_or_ge (c.reach d.actor) d.counter with hr | hr
        · exact .inr ⟨hd, fun _ => hr⟩
        · exact .inl hr
  · rw [frontierOf_compact_of_ne h]
    simp [h]

/-! ### Canonical contexts -/

/-- No frontier stands at zero, and every dot of the cloud has a gap before it. -/
structure Canonical (c : CausalContext) : Prop where
  frontier_pos : ∀ a n, c.frontier.get? a = some n → 0 < n
  cloud_beyond : ∀ d ∈ c.cloud, c.frontierOf d.actor + 1 < d.counter

lemma canonical_empty : Canonical empty where
  frontier_pos a n h := by simp [empty] at h
  cloud_beyond d h := by simp [empty] at h

lemma frontier_pos_compact (h : ∀ b n, c.frontier.get? b = some n → 0 < n) :
    ∀ b n, (c.compact a).frontier.get? b = some n → 0 < n := by
  intro b n hb
  change SortedMap.get? (if 0 < c.reach a then c.frontier.insert a (c.reach a) else c.frontier) b
    = some n at hb
  split at hb
  · by_cases hba : b = a
    · subst hba
      simp at hb
      omega
    · rw [SortedMap.get?_insert_of_ne hba] at hb
      exact h b n hb
  · exact h b n hb

lemma cloud_beyond_compact (hd : d ∈ (c.compact d.actor).cloud) :
    (c.compact d.actor).frontierOf d.actor + 1 < d.counter := by
  obtain ⟨hd, hr⟩ := mem_cloud_compact.mp hd
  have hr := hr rfl
  rw [frontierOf_compact_self]
  have hgap : d.counter ≠ c.reach d.actor + 1 := by
    intro heq
    have hmem : d.counter ∈ c.cloudOf d.actor := mem_cloudOf.mpr hd
    rw [heq] at hmem
    exact succ_extend_notMem (sorted_cloudOf c d.actor) hmem
  omega

/-- Every dot up to a frontier is contained, and a canonical context contains no dot right after
its frontier. -/
lemma Canonical.le_frontierOf_iff (h : c.Canonical) :
    n ≤ c.frontierOf a ↔ ∀ m, 0 < m → m ≤ n → c.contains ⟨a, m⟩ = true := by
  constructor
  · exact fun hn m _ hm => contains_iff.mpr (.inl (le_trans hm hn))
  · intro hall
    by_contra hn
    have := hall (c.frontierOf a + 1) (by omega) (by omega)
    rcases contains_iff.mp this with hf | hcloud
    · exact Nat.not_succ_le_self _ hf
    · have := h.cloud_beyond _ hcloud
      simp at this

/-- **A canonical context is determined by its dots.** -/
theorem Canonical.ext (h : c.Canonical) (h' : c'.Canonical)
    (hd : ∀ d : Dot, 0 < d.counter → (c.contains d = true ↔ c'.contains d = true)) : c = c' := by
  have hf : ∀ a, c.frontierOf a = c'.frontierOf a := by
    intro a
    refine eq_of_forall_le_iff fun n => ?_
    rw [h.le_frontierOf_iff, h'.le_frontierOf_iff]
    exact forall_congr' fun m => forall_congr' fun hm => forall_congr' fun _ => hd ⟨a, m⟩ hm
  have hfrontier : c.frontier = c'.frontier := by
    ext a n
    have hget : ∀ {c : CausalContext}, c.Canonical →
        (c.frontier.get? a = some n ↔ 0 < n ∧ c.frontierOf a = n) := by
      intro c hc
      have hpos := hc.frontier_pos a
      rw [frontierOf, SortedMap.getD]
      cases hg : c.frontier.get? a with
      | none => simp; omega
      | some m =>
        have := hpos m hg
        simp
        omega
    rw [hget h, hget h', hf]
  have hcloud : c.cloud = c'.cloud := by
    ext d
    have hmem : ∀ {c : CausalContext}, c.Canonical →
        (d ∈ c.cloud ↔ c.frontierOf d.actor < d.counter ∧ c.contains d = true) := by
      intro c hc
      rw [contains_iff]
      constructor
      · intro hd
        have := hc.cloud_beyond d hd
        exact ⟨by omega, .inr hd⟩
      · rintro ⟨hlt, hle | hd⟩
        · omega
        · exact hd
    rw [hmem h, hmem h', hf]
    by_cases hpos : 0 < d.counter
    · rw [hd d hpos]
    · omega
  obtain ⟨_, _⟩ := c
  obtain ⟨_, _⟩ := c'
  simp only at hfrontier hcloud
  rw [hfrontier, hcloud]

/-! ### Insertion -/

lemma insert_eq : c.insert d =
    if c.contains d then c
    else if d.counter = c.frontierOf d.actor + 1 then
      { c with frontier := c.frontier.insert d.actor d.counter }.compact d.actor
    else { c with cloud := c.cloud.insert d } := by
  rw [insert, record]
  split_ifs <;> rfl

lemma insert_of_contains (h : c.contains d = true) : c.insert d = c := by
  rw [insert_eq, if_pos h]

/-- **Insertion adds exactly the dot.** -/
lemma contains_insert : (c.insert d).contains e = true ↔ c.contains e = true ∨ e = d := by
  rw [insert_eq]
  split
  · rename_i h
    constructor
    · exact .inl
    · rintro (h' | rfl)
      · exact h'
      · exact h
  split
  · -- the dot extends the frontier
    rename_i hnew
    rw [contains_compact, contains_iff, contains_iff]
    simp only [frontierOf, SortedMap.getD] at hnew ⊢
    by_cases ha : e.actor = d.actor
    · rw [ha, SortedMap.get?_insert_self, Option.getD_some]
      have heq : e = d ↔ e.counter = d.counter :=
        ⟨fun h => h ▸ rfl, fun h => by cases e; cases d; simp_all⟩
      rw [heq, or_right_comm, hnew]
      exact or_congr_left Nat.le_succ_iff
    · rw [SortedMap.get?_insert_of_ne ha]
      have hne : e ≠ d := fun h => ha (h ▸ rfl)
      simp [hne]
  · rw [contains_iff, contains_iff, SortedSet.mem_insert, or_left_comm, or_comm (a := e = d)]
    rfl

lemma canonical_insert (h : c.Canonical) : (c.insert d).Canonical := by
  rw [insert_eq]
  split
  · exact h
  split
  · rename_i hnew
    refine ⟨frontier_pos_compact ?_, fun e he => ?_⟩
    · intro b n hb
      by_cases hba : b = d.actor
      · subst hba
        simp at hb
        omega
      · rw [SortedMap.get?_insert_of_ne hba] at hb
        exact h.frontier_pos b n hb
    · by_cases ha : e.actor = d.actor
      · rw [← ha] at he ⊢
        exact cloud_beyond_compact he
      · rw [frontierOf_compact_of_ne ha, frontierOf, SortedMap.getD,
          SortedMap.get?_insert_of_ne ha]
        exact h.cloud_beyond e (mem_cloud_compact.mp he).1
  · rename_i hout hgap
    refine ⟨h.frontier_pos, fun e he => ?_⟩
    rcases SortedSet.mem_insert.mp he with rfl | he
    · have : ¬ e.counter ≤ c.frontierOf e.actor := fun hle => hout (contains_iff.mpr (.inl hle))
      change c.frontierOf e.actor + 1 < e.counter
      omega
    · exact h.cloud_beyond e he

lemma insertAll_cons (c : CausalContext) (d : Dot) (l : List Dot) :
    c.insertAll (d :: l) = (c.insert d).insertAll l := rfl

lemma contains_insertAll {l : List Dot} :
    (c.insertAll l).contains e = true ↔ c.contains e = true ∨ e ∈ l := by
  induction l generalizing c with
  | nil => simp [insertAll]
  | cons d l ih =>
    rw [insertAll_cons, ih, contains_insert, List.mem_cons, or_assoc]

lemma canonical_insertAll {l : List Dot} (h : c.Canonical) : (c.insertAll l).Canonical := by
  induction l generalizing c with
  | nil => exact h
  | cons d l ih => exact ih (canonical_insert h)

lemma insertAll_of_contains {l : List Dot} (h : ∀ d ∈ l, c.contains d = true) :
    c.insertAll l = c := by
  induction l with
  | nil => rfl
  | cons d l ih =>
    rw [insertAll_cons, insert_of_contains (h d (by simp))]
    exact ih fun d hd => h d (by simp [hd])

lemma counter_lt_nextDot (h : c.contains d = true) : d.counter < (c.nextDot d.actor).counter := by
  have hmax : ∀ (l : List Nat) (m : Nat), m ≤ l.foldl max m ∧ ∀ n ∈ l, n ≤ l.foldl max m := by
    intro l
    induction l with
    | nil => simp
    | cons k l ih =>
      intro m
      obtain ⟨hm, hl⟩ := ih (max m k)
      simp only [List.foldl_cons, List.mem_cons, forall_eq_or_imp]
      exact ⟨by omega, by omega, hl⟩
  rw [nextDot]
  rcases contains_iff.mp h with hf | hcloud
  · simp only
    omega
  · have := (hmax (c.cloudOf d.actor) 0).2 _ (mem_cloudOf.mpr hcloud)
    simp only
    omega

lemma not_contains_nextDot : c.contains (c.nextDot a) = false := by
  rw [← Bool.not_eq_true]
  exact fun h => lt_irrefl _ (counter_lt_nextDot h)

/-! ### Union -/

def pool (c c' : CausalContext) : CausalContext where
  frontier := c'.frontier.entries.foldl
    (fun m e => m.alter e.1 fun mine => max (mine.getD 0) e.2) c.frontier
  cloud := c.cloud.union c'.cloud

lemma merge_eq : c.merge c' = (pool c c').actors.toList.foldl compact (pool c c') := rfl

lemma get?_frontier_pool : (pool c c').frontier.get? a =
    (c'.frontier.get? a).elim (c.frontier.get? a) fun n => some (max (c.frontierOf a) n) :=
  SortedMap.get?_foldl_alter (fun (n : Nat) (mine : Option Nat) => max (mine.getD 0) n)
    c.frontier c'.frontier

lemma frontierOf_pool : (pool c c').frontierOf a = max (c.frontierOf a) (c'.frontierOf a) := by
  have hget : (pool c c').frontier.get? a = _ := get?_frontier_pool
  unfold frontierOf SortedMap.getD at hget ⊢
  rw [hget]
  cases c'.frontier.get? a with
  | none => exact (Nat.max_eq_left (Nat.zero_le _)).symm
  | some n => rfl

lemma contains_pool :
    (pool c c').contains d = true ↔ c.contains d = true ∨ c'.contains d = true := by
  have hmax : d.counter ≤ max (c.frontierOf d.actor) (c'.frontierOf d.actor) ↔
      d.counter ≤ c.frontierOf d.actor ∨ d.counter ≤ c'.frontierOf d.actor := by omega
  rw [contains_iff, contains_iff, contains_iff, frontierOf_pool, hmax, pool, SortedSet.mem_union]
  tauto

lemma contains_foldl_compact {l : List Actor} : (l.foldl compact c).contains d = c.contains d := by
  induction l generalizing c with
  | nil => rfl
  | cons a l ih => rw [List.foldl_cons, ih, contains_compact]

lemma mem_cloud_of_foldl_compact {l : List Actor} (h : d ∈ (l.foldl compact c).cloud) :
    d ∈ c.cloud := by
  induction l generalizing c with
  | nil => exact h
  | cons a l ih => exact (mem_cloud_compact.mp (ih h)).1

/-- Compacting actor after actor leaves a gap before the dots of each, and closes none. -/
lemma cloud_beyond_foldl_compact {l : List Actor} (hd : d ∈ (l.foldl compact c).cloud)
    (h : d.actor ∈ l ∨ c.frontierOf d.actor + 1 < d.counter) :
    (l.foldl compact c).frontierOf d.actor + 1 < d.counter := by
  induction l generalizing c with
  | nil => simpa using h
  | cons a l ih =>
    refine ih hd ?_
    by_cases ha : d.actor = a
    · subst ha
      exact .inr (cloud_beyond_compact (mem_cloud_of_foldl_compact hd))
    · rw [frontierOf_compact_of_ne ha]
      exact h.imp_left fun hmem => (List.mem_cons.mp hmem).resolve_left ha

/-- **Merging is union.** -/
lemma contains_merge :
    (c.merge c').contains d = true ↔ c.contains d = true ∨ c'.contains d = true := by
  rw [merge_eq, contains_foldl_compact, contains_pool]

lemma canonical_merge_of_frontier_pos
    (hpos : ∀ b n, (pool c c').frontier.get? b = some n → 0 < n) : (c.merge c').Canonical := by
  rw [merge_eq]
  refine ⟨?_, fun d hd => cloud_beyond_foldl_compact hd (.inl ?_)⟩
  · generalize (pool c c').actors.toList = l
    generalize pool c c' = p at hpos
    induction l generalizing p with
    | nil => exact hpos
    | cons a l ih => exact ih _ (frontier_pos_compact hpos)
  · have := mem_cloud_of_foldl_compact hd
    rw [actors, SortedSet.mem_toList, SortedSet.mem_ofList, List.mem_append, List.mem_map]
    exact .inr ⟨d, this, rfl⟩

lemma canonical_merge (h : c.Canonical) (h' : c'.Canonical) : (c.merge c').Canonical := by
  refine canonical_merge_of_frontier_pos fun b n hb => ?_
  rw [get?_frontier_pool] at hb
  cases hg : c'.frontier.get? b with
  | none => exact h.frontier_pos b n (by simpa [hg] using hb)
  | some m =>
    have := h'.frontier_pos b m hg
    simp only [hg, Option.elim_some, Option.some.injEq] at hb
    omega

/-! ### Contexts below one another -/

/-- A canonical context takes in what it contains without a change. -/
lemma merge_eq_right_iff (h : c.Canonical) (h' : c'.Canonical) :
    c.merge c' = c' ↔ ∀ d, c.contains d = true → c'.contains d = true := by
  constructor
  · intro heq d hd
    rw [← heq]
    exact contains_merge.mpr (.inl hd)
  · intro hsub
    refine (canonical_merge h h').ext h' fun d _ => contains_merge.trans ?_
    exact or_iff_right_of_imp (hsub d)

lemma empty_merge (h : c.Canonical) : empty.merge c = c :=
  (canonical_merge canonical_empty h).ext h fun d hpos => by
    simp [contains_merge, not_contains_empty hpos]

lemma isSome_frontier_compact (h : (c.frontier.get? b).isSome) :
    ((c.compact a).frontier.get? b).isSome := by
  change (SortedMap.get? (if 0 < c.reach a then c.frontier.insert a (c.reach a) else c.frontier)
    b).isSome
  split
  · by_cases hba : b = a
    · simp [hba]
    · rwa [SortedMap.get?_insert_of_ne hba]
  · exact h

lemma isSome_frontier_merge (h : (c.frontier.get? b).isSome) :
    ((c.merge c').frontier.get? b).isSome := by
  have hpool : ((pool c c').frontier.get? b).isSome := by
    rw [get?_frontier_pool]
    cases c'.frontier.get? b with
    | none => exact h
    | some n => rfl
  rw [merge_eq]
  generalize (pool c c').actors.toList = l
  generalize pool c c' = p at hpool
  induction l generalizing p with
  | nil => exact hpool
  | cons a l ih => exact ih _ (isSome_frontier_compact hpool)

/-- What is below a canonical context is below all that are above it, also if it is not canonical
itself. -/
lemma merge_eq_right_trans {t : CausalContext} (h : c.Canonical) (h' : c'.Canonical)
    (ht : t.merge c = c) (hc : c.merge c' = c') : t.merge c' = c' := by
  have hsub := (merge_eq_right_iff h h').mp hc
  have hcanonical : (t.merge c').Canonical := by
    refine canonical_merge_of_frontier_pos fun b n hb => ?_
    rw [get?_frontier_pool] at hb
    cases hg : c'.frontier.get? b with
    | some m =>
      have := h'.frontier_pos b m hg
      simp only [hg, Option.elim_some, Option.some.injEq] at hb
      omega
    | none =>
      -- the context in between has a frontier there, so the one above has one, too
      have hb : (t.frontier.get? b).isSome := by
        rw [hg, Option.elim_none] at hb
        simp [hb]
      have hmerged : ((t.merge c).frontier.get? b).isSome := isSome_frontier_merge hb
      rw [ht] at hmerged
      obtain ⟨m, hm⟩ := Option.isSome_iff_exists.mp hmerged
      have hfirst : c.contains ⟨b, 1⟩ = true := by
        refine contains_iff.mpr (.inl ?_)
        have := h.frontier_pos b m hm
        simp only [frontierOf, SortedMap.getD, hm, Option.getD_some]
        omega
      have hle : 1 ≤ c'.frontierOf b := h'.le_frontierOf_iff.mpr fun n hn hle => by
        rw [show n = 1 by omega]
        exact hsub _ hfirst
      simp [frontierOf, SortedMap.getD, hg] at hle
  refine hcanonical.ext h' fun d _ => contains_merge.trans (or_iff_right_of_imp fun hd => ?_)
  refine hsub d ?_
  rw [← ht]
  exact contains_merge.mpr (.inl hd)

/-! ### The set that a context stands for -/

/-- The context is canonical and contains exactly the dots of the set. Counters begin at 1: what
lies below counts as contained everywhere. -/
structure Represents (c : CausalContext) (A : Set Dot) : Prop where
  canonical : c.Canonical
  contains_iff : ∀ d : Dot, 0 < d.counter → (c.contains d = true ↔ d ∈ A)

variable {A B : Set Dot}

lemma represents_empty : empty.Represents ∅ where
  canonical := canonical_empty
  contains_iff d hd := by simp [not_contains_empty hd]

lemma Represents.eq (h : c.Represents A) (h' : c'.Represents A) : c = c' :=
  h.canonical.ext h'.canonical fun d hd => (h.contains_iff d hd).trans (h'.contains_iff d hd).symm

lemma Represents.congr (h : c.Represents A) (hAB : ∀ d, d ∈ A ↔ d ∈ B) : c.Represents B :=
  ⟨h.canonical, fun d hd => (h.contains_iff d hd).trans (hAB d)⟩

lemma Represents.insertAll (h : c.Represents A) (l : List Dot) :
    (c.insertAll l).Represents (A ∪ {d | d ∈ l}) where
  canonical := canonical_insertAll h.canonical
  contains_iff d hd := by rw [contains_insertAll, h.contains_iff d hd]; rfl

lemma Represents.merge (h : c.Represents A) (h' : c'.Represents B) :
    (c.merge c').Represents (A ∪ B) where
  canonical := canonical_merge h.canonical h'.canonical
  contains_iff d hd := by rw [contains_merge, h.contains_iff d hd, h'.contains_iff d hd]; rfl

end CausalContext

end DeltaRing
