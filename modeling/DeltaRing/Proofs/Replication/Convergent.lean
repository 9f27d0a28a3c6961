import DeltaRing.Delta
import Mathlib.Data.Set.Insert
import Mathlib.Tactic.Common

/-!
What it takes for a family of replicated values to converge.

The deltas that the actors of one run hand out are coherent: they never contradict each other.
Every set of coherent deltas has one state that summarizes it, and merging a delta into a state
brings the state from the summary of a set to the summary of the set with the delta. Everything
about replicas that have merged the same deltas, or that exchange what the other lacks, follows
from these laws alone.
-/

namespace DeltaRing

class Authored (D : Type) where
  /-- The actor whose operation handed the delta out. -/
  author : D → Actor
  /-- The deltas do not contradict each other. -/
  Coherent : Set D → Prop

class Summary (S : Type) (D : outParam Type) where
  /-- The state says what the deltas say, and nothing else. -/
  Summarizes : S → Set D → Prop

export Authored (author Coherent)
export Summary (Summarizes)

class Convergent (S : Type) {D T : outParam Type} [CausalTimestamp T D] [DeltaCrdt S D T]
    [Authored D] [Summary S D] : Prop where
  coherent_empty : Coherent (∅ : Set D)
  summarizes_initial : Summarizes (initial : S) (∅ : Set D)
  summarizes_unique {E X : Set D} {s s' : S} : Coherent E → X ⊆ E →
    Summarizes s X → Summarizes s' X → s = s'
  summarizes_merge {E X : Set D} {s : S} {δ : D} : Coherent E → X ⊆ E → δ ∈ E →
    Summarizes s X → Summarizes (merge s δ).1 (insert δ X)
  merge_of_reflects {s : S} {δ : D} : reflects (timestamp s) δ = true →
    merge s δ = (s, .unchanged)
  reflects_of_mem {E X : Set D} {s : S} {δ : D} : Coherent E → X ⊆ E → Summarizes s X →
    δ ∈ X → reflects (timestamp s) δ = true
  not_reflects_initial {E : Set D} {δ : D} : Coherent E → δ ∈ E →
    reflects (timestamp (initial : S)) δ = false
  mem_of_mem_deltasSince {X : Set D} {s : S} {since : Option T} {δ : D} : Summarizes s X →
    δ ∈ deltasSince s since → δ ∈ X
  /-- Who has merged what a replica lists, and reflects what the listing left out as known,
  reflects everything that the replica has merged. -/
  reflects_of_deltasSince {E X Y : Set D} {s u : S} {since : Option T} {δ : D} : Coherent E →
    X ⊆ E → Y ⊆ E → Summarizes s X → Summarizes u Y →
    (∀ t ∈ since, ∀ δ ∈ E, reflects t δ = true → reflects (timestamp u) δ = true) →
    (∀ δ ∈ deltasSince s since, δ ∈ Y) → δ ∈ X → reflects (timestamp u) δ = true
  timestamp_union {E X Y : Set D} {s s' u : S} : Coherent E → X ⊆ E → Y ⊆ E →
    Summarizes s X → Summarizes s' Y → Summarizes u (X ∪ Y) →
    timestamp u = Lattice.join (timestamp s) (timestamp s')

/-- The state `s'` is `s` after a change by `a` that hands out `δs`, when `E` has been handed out
before. -/
structure HandsOut {S D T : Type} [DeltaCrdt S D T] [Authored D] (E : Set D) (a : Actor)
    (s s' : S) (δs : List D) : Prop where
  /-- A local change is the merge of what it hands out. -/
  state : s' = (mergeAll s δs).1
  coherent : Coherent (E ∪ {δ | δ ∈ δs})
  authored : ∀ δ ∈ δs, author δ = a
  fresh : ∀ δ ∈ δs, δ ∉ E
  nodup : δs.Nodup

/-- The law of operations, for an actor whose own deltas are all merged in the replica. -/
class HandsOutCoherently (S : Type) {D T O R K : outParam Type} [DeltaCrdt S D T]
    [Operable S D O R K] [Authored D] [Summary S D] : Prop where
  handsOut_apply {E X : Set D} {s : S} {a : Actor} {op : O} : Coherent E → X ⊆ E →
    Summarizes s X → (∀ δ ∈ E, author δ = a → δ ∈ X) →
    HandsOut E a s (Operable.apply s a op).1 (Operable.apply s a op).2.2

section

variable {S D T : Type} [DeltaCrdt S D T]

@[simp] lemma mergeAll_nil (s : S) : (mergeAll s []).1 = s := rfl

lemma mergeAll_eq_foldl (s : S) (l : List D) :
    (mergeAll s l).1 = l.foldl (fun s δ => (merge s δ).1) s := by
  have h : ∀ p : S × MergeResult,
      (l.foldl (fun p δ => ((merge p.1 δ).1, p.2.or (merge p.1 δ).2)) p).1
        = l.foldl (fun s δ => (merge s δ).1) p.1 := by
    induction l with
    | nil => exact fun _ => rfl
    | cons δ l ih => exact fun p => ih _
  exact h (s, .unchanged)

@[simp] lemma mergeAll_cons (s : S) (δ : D) (l : List D) :
    (mergeAll s (δ :: l)).1 = (mergeAll (merge s δ).1 l).1 := by
  simp [mergeAll_eq_foldl]

lemma mergeAll_append (s : S) (l l' : List D) :
    (mergeAll s (l ++ l')).1 = (mergeAll (mergeAll s l).1 l').1 := by
  simp [mergeAll_eq_foldl]

variable [Authored D] {E : Set D} {a : Actor} {s s' : S} {δ : D}

lemma HandsOut.nothing (hE : Coherent E) : HandsOut E a s s [] where
  state := rfl
  coherent := by simpa using hE
  authored := by simp
  fresh := by simp
  nodup := List.nodup_nil

lemma HandsOut.one (hs : s' = (merge s δ).1) (hE : Coherent (E ∪ {δ})) (ha : author δ = a)
    (hδ : δ ∉ E) : HandsOut E a s s' [δ] where
  state := hs
  coherent := by simpa using hE
  authored := by simpa using ha
  fresh := by simpa using hδ
  nodup := by simp

end

namespace Convergent

variable {S D T : Type} [CausalTimestamp T D] [DeltaCrdt S D T] [Authored D] [Summary S D]
  [Convergent S]
variable {E X : Set D} {s u : S} {l l' : List D} {δ : D}

/-! ### Merging many deltas -/

lemma summarizes_mergeAll (hE : Coherent E) (hX : X ⊆ E) (hl : {δ | δ ∈ l} ⊆ E)
    (hs : Summarizes s X) : Summarizes (mergeAll s l).1 (X ∪ {δ | δ ∈ l}) := by
  induction l generalizing s X with
  | nil => simpa using hs
  | cons δ l ih =>
    have hδ : δ ∈ E := hl (by simp)
    rw [mergeAll_cons]
    have := ih (Set.insert_subset hδ hX) (fun ε hε => hl (List.mem_cons_of_mem δ hε))
      (summarizes_merge hE hX hδ hs)
    convert this using 1
    ext ε
    simp only [Set.mem_union, Set.mem_ofPred_eq, List.mem_cons, Set.mem_insert_iff]
    tauto

lemma eq_mergeAll_initial (hE : Coherent E) (hl : {δ | δ ∈ l} ⊆ E)
    (hs : Summarizes s {δ | δ ∈ l}) : s = (mergeAll (initial : S) l).1 := by
  refine summarizes_unique hE hl hs ?_
  simpa using summarizes_mergeAll hE (Set.empty_subset E) hl summarizes_initial

lemma mergeAll_of_reflects (h : ∀ δ ∈ l, reflects (timestamp s) δ = true) :
    (mergeAll s l).1 = s := by
  induction l with
  | nil => rfl
  | cons δ l ih =>
    rw [mergeAll_cons, merge_of_reflects (h δ (by simp))]
    exact ih fun ε hε => h ε (by simp [hε])

/-- A replica that reflects a list is as if it had merged it. -/
lemma summarizes_of_reflects (hE : Coherent E) (hX : X ⊆ E) (hl : {δ | δ ∈ l} ⊆ E)
    (hs : Summarizes s X) (h : ∀ δ ∈ l, reflects (timestamp s) δ = true) :
    Summarizes s (X ∪ {δ | δ ∈ l}) := by
  have := summarizes_mergeAll hE hX hl hs
  rwa [mergeAll_of_reflects h] at this

/-! ### Timestamps -/

/-- **The timestamp determines the state.** -/
theorem eq_of_timestamp_eq (hE : Coherent E) (hl : {δ | δ ∈ l} ⊆ E) (hl' : {δ | δ ∈ l'} ⊆ E)
    (hs : Summarizes s {δ | δ ∈ l}) (hu : Summarizes u {δ | δ ∈ l'})
    (h : timestamp s = timestamp u) : s = u := by
  -- each of the two reflects what the other has merged
  have hs' := summarizes_of_reflects hE hl hl' hs fun δ hδ => by
    rw [h]
    exact reflects_of_mem hE hl' hu hδ
  have hu' := summarizes_of_reflects hE hl' hl hu fun δ hδ => by
    rw [← h]
    exact reflects_of_mem hE hl hs hδ
  rw [Set.union_comm] at hu'
  exact summarizes_unique hE (Set.union_subset hl hl') hs' hu'

/-- Who has merged more reflects more. -/
lemma reflects_mono (hE : Coherent E) (hl : {δ | δ ∈ l} ⊆ E) (hl' : {δ | δ ∈ l'} ⊆ E)
    (hs : Summarizes s {δ | δ ∈ l}) (hu : Summarizes u {δ | δ ∈ l'})
    (hsub : {δ | δ ∈ l} ⊆ {δ | δ ∈ l'}) (hδ : δ ∈ E) (h : reflects (timestamp s) δ = true) :
    reflects (timestamp u) δ = true := by
  have hδs : Summarizes s (insert δ {δ | δ ∈ l}) := by
    have := summarizes_merge hE hl hδ hs
    rwa [merge_of_reflects h] at this
  have hmerged := summarizes_mergeAll hE (Set.insert_subset hδ hl) hl' hδs
  have hsu : (mergeAll s l').1 = u := by
    refine summarizes_unique hE hl' ?_ hu
    have := summarizes_mergeAll hE hl hl' hs
    rwa [Set.union_eq_self_of_subset_left hsub] at this
  rw [hsu] at hmerged
  exact reflects_of_mem hE (Set.union_subset (Set.insert_subset hδ hl) hl') hmerged
    (.inl (Set.mem_insert δ _))

/-! ### Handing on what the other lacks -/

variable {since : Option T} {ds : List D}

/-- Who reflects what a replica lists for a timestamp, and what the timestamp does, reflects all
that the replica reflects. -/
lemma reflects_of_listing {Y : Set D} {t : T} (hE : Coherent E) (hX : X ⊆ E) (hY : Y ⊆ E)
    (hs : Summarizes s X) (hu : Summarizes u Y)
    (hknown : ∀ ε ∈ E, reflects t ε = true → reflects (timestamp u) ε = true)
    (hlisted : ∀ ε ∈ deltasSince s (some t), reflects (timestamp u) ε = true) (hδ : δ ∈ E)
    (h : reflects (timestamp s) δ = true) : reflects (timestamp u) δ = true := by
  have hlist : {ε | ε ∈ deltasSince s (some t)} ⊆ E := fun ε hε =>
    hX (mem_of_mem_deltasSince hs hε)
  have hone : {ε | ε ∈ [δ]} ⊆ E := by simpa using hδ
  have hs' := summarizes_of_reflects hE hX hone hs (by simpa using h)
  have hu' := summarizes_of_reflects hE hY hlist hu hlisted
  refine reflects_of_deltasSince hE (Set.union_subset hX hone) (Set.union_subset hY hlist) hs' hu'
    ?_ (fun ε hε => .inr hε) (.inr (List.mem_singleton_self δ))
  rintro t ⟨⟩
  exact hknown

/-- **Anti-entropy is complete.** A replica that reflects what the listing was spared, and merges
the listing in any order and with repetitions, is as if it had merged everything that the listing
replica has. -/
theorem summarizes_after_deltasSince (hE : Coherent E) (hl : {δ | δ ∈ l} ⊆ E)
    (hl' : {δ | δ ∈ l'} ⊆ E) (hs : Summarizes s {δ | δ ∈ l}) (hu : Summarizes u {δ | δ ∈ l'})
    (hsince : ∀ t ∈ since, ∀ δ ∈ E, reflects t δ = true → reflects (timestamp u) δ = true)
    (hds : ∀ δ, δ ∈ ds ↔ δ ∈ deltasSince s since) :
    Summarizes (mergeAll u ds).1 ({δ | δ ∈ l} ∪ {δ | δ ∈ l'}) := by
  have hdsl : {δ | δ ∈ ds} ⊆ {δ | δ ∈ l} := fun δ hδ =>
    mem_of_mem_deltasSince hs ((hds δ).mp hδ)
  have hdsE : {δ | δ ∈ ds} ⊆ E := hdsl.trans hl
  have hmerged : Summarizes (mergeAll u ds).1 {δ | δ ∈ l' ++ ds} := by
    have := summarizes_mergeAll hE hl' hdsE hu
    convert this using 1
    ext δ
    simp
  have hl'' : {δ | δ ∈ l' ++ ds} ⊆ E := fun δ hδ =>
    (List.mem_append.mp hδ).elim (fun h => hl' h) (fun h => hdsE h)
  have hall : ∀ δ ∈ l, reflects (timestamp (mergeAll u ds).1) δ = true := fun δ hδ =>
    reflects_of_deltasSince hE hl hl'' hs hmerged
      (fun t ht ε hε h => reflects_mono hE hl' hl'' hu hmerged
        (fun _ h => List.mem_append_left ds h) hε (hsince t ht ε hε h))
      (fun ε hε => List.mem_append_right l' ((hds ε).mpr hε)) hδ
  have := summarizes_of_reflects hE hl'' hl hmerged hall
  convert this using 1
  ext δ
  simp only [Set.mem_union, Set.mem_ofPred_eq, List.mem_append]
  have := @hdsl δ
  tauto

end Convergent

/-! ### Operations in turn -/

namespace Operable

variable {S D T O R K : Type} [DeltaCrdt S D T] [Operable S D O R K]

def changeAll (change : S → O → S × R × List D) (s : S) : List O → S × List R × List D
  | [] => (s, [], [])
  | op :: ops =>
    let (s, output, δs) := change s op
    let (s, outputs, δs') := changeAll change s ops
    (s, output :: outputs, δs ++ δs')

def applyAll (s : S) (a : Actor) (ops : List O) : S × List R × List D :=
  changeAll (fun s => apply s a) s ops

@[reducible] def inTurn (S : Type) {D O R K : Type} [Operable S D O R K] :
    Operable S D (List O) (List R) (List K) where
  apply := applyAll
  applyInWords s a := changeAll (fun s => applyInWords s a) s
  operationKey ops := ops.map (operationKey S)

end Operable

section

variable {S D T O R K : Type} [DeltaCrdt S D T] [Authored D] {E : Set D} {a : Actor}
  {s s' s'' : S} {δs δs' : List D}

lemma HandsOut.trans (h : HandsOut E a s s' δs) (h' : HandsOut (E ∪ {δ | δ ∈ δs}) a s' s'' δs') :
    HandsOut E a s s'' (δs ++ δs') where
  state := by rw [mergeAll_append, ← h.state, h'.state]
  coherent := by
    have := h'.coherent
    rw [Set.union_assoc] at this
    convert this using 2
    ext δ
    simp
  authored δ hδ := (List.mem_append.mp hδ).elim (h.authored δ) (h'.authored δ)
  fresh δ hδ hE := (List.mem_append.mp hδ).elim (fun hδ => h.fresh δ hδ hE)
    (fun hδ => h'.fresh δ hδ (.inl hE))
  nodup := by
    refine List.nodup_append.mpr ⟨h.nodup, h'.nodup, fun δ hδ ε hε => ?_⟩
    rintro rfl
    exact h'.fresh δ hε (.inr hδ)

variable [CausalTimestamp T D] [Summary S D] [laws : Convergent S] [Operable S D O R K]
  [operations : HandsOutCoherently S]

include laws operations in
lemma handsOut_applyAll {X : Set D} (ops : List O) (hE : Coherent E) (hX : X ⊆ E)
    (hs : Summarizes s X) (hown : ∀ δ ∈ E, author δ = a → δ ∈ X) :
    HandsOut E a s (Operable.applyAll s a ops).1 (Operable.applyAll s a ops).2.2 := by
  induction ops generalizing s E X with
  | nil => exact HandsOut.nothing hE
  | cons op ops ih =>
    have hfirst : HandsOut E a s (Operable.apply s a op).1 (Operable.apply s a op).2.2 :=
      HandsOutCoherently.handsOut_apply hE hX hs hown
    refine hfirst.trans (ih hfirst.coherent (Set.union_subset_union_left _ hX) ?_ ?_)
    · rw [hfirst.state]
      exact Convergent.summarizes_mergeAll hfirst.coherent (hX.trans Set.subset_union_left)
        Set.subset_union_right hs
    · rintro δ (hδ | hδ) ha
      · exact .inl (hown δ hδ ha)
      · exact .inr hδ

/-- Operations in turn obey the law of operations. -/
lemma handsOutCoherently_inTurn : @HandsOutCoherently S D T (List O) (List R) (List K) _
    (Operable.inTurn S) _ _ :=
  @HandsOutCoherently.mk S D T (List O) (List R) (List K) _ (Operable.inTurn S) _ _
    fun hE hX hs hown => handsOut_applyAll _ hE hX hs hown

end

end DeltaRing
