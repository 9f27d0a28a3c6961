import DeltaRing.Proofs.Replication.Convergent
import Mathlib.Data.List.Induction
import Mathlib.Logic.Embedding.Basic

/-!
Runs of replicas that change locally and exchange deltas.

Every replica has an actor of its own. Whatever an operation hands out goes into circulation, and
so does what a replica lists for the holder of a timestamp; a delta in circulation may reach any
replica at any time, again and again or never. So losses, repetitions and delays are all runs.
What each replica has merged and what has been handed out is written down beside the states.
-/

namespace DeltaRing

structure World (ι S D : Type) where
  replica : ι → S
  /-- What each replica has merged, its own deltas included. -/
  delivered : ι → List D
  /-- What operations have handed out, in order. -/
  emitted : List D
  /-- What is in circulation. -/
  sent : List D

/-- What can happen next, among replicas `ι`. -/
inductive Event (ι O T : Type) where
  /-- A replica applies an operation as its own actor. -/
  | operate (i : ι) (op : O)
  /-- A replica lists the deltas that a timestamp does not reflect. -/
  | offer (i : ι) (since : Option T)
  /-- The `n`th delta put into circulation reaches a replica. -/
  | deliver (i : ι) (n : Nat)

def twoActors : Bool ↪ Actor :=
  ⟨fun b => if b then "b" else "a", fun b b' h => by cases b <;> cases b' <;> simp_all⟩

namespace World

variable {ι S D T O R K : Type} [DeltaCrdt S D T]

def start : World ι S D := ⟨fun _ => initial, fun _ => [], [], []⟩

def offer (w : World ι S D) (i : ι) (since : Option T) : World ι S D :=
  { w with sent := w.sent ++ deltasSince (w.replica i) since }

section

variable [DecidableEq ι] [Operable S D O R K]

/-- Replaces the state of a replica by one that has merged `δs` as well. -/
def set (w : World ι S D) (i : ι) (s : S) (δs : List D) : World ι S D :=
  { w with
    replica := Function.update w.replica i s
    delivered := Function.update w.delivered i (w.delivered i ++ δs) }

def emit (w : World ι S D) (i : ι) (s : S) (δs : List D) : World ι S D :=
  { w.set i s δs with emitted := w.emitted ++ δs, sent := w.sent ++ δs }

def operate (actor : ι → Actor) (w : World ι S D) (i : ι) (op : O) : World ι S D :=
  let out := Operable.apply (w.replica i) (actor i) op
  w.emit i out.1 out.2.2

def receive (w : World ι S D) (i : ι) (δ : D) : World ι S D :=
  w.set i (merge (w.replica i) δ).1 [δ]

def step (actor : ι → Actor) (w : World ι S D) : Event ι O T → World ι S D
  | .operate i op => w.operate actor i op
  | .offer i since => w.offer i since
  | .deliver i n =>
    match w.sent[n]? with
    | none => w
    | some δ => w.receive i δ

def run (actor : ι → Actor) (events : List (Event ι O T)) : World ι S D :=
  events.foldl (step actor) start

lemma run_append (actor : ι → Actor) (es fs : List (Event ι O T)) :
    (run actor (es ++ fs) : World ι S D) = fs.foldl (step actor) (run actor es) :=
  List.foldl_append

end

section

variable {ι S D : Type} [DecidableEq ι] {w : World ι S D} {i j : ι} {s : S} {δs : List D}

@[simp] lemma replica_set_self : (w.set i s δs).replica i = s := Function.update_self _ _ _

lemma replica_set_of_ne (h : j ≠ i) : (w.set i s δs).replica j = w.replica j :=
  Function.update_of_ne h _ _

@[simp] lemma delivered_set_self : (w.set i s δs).delivered i = w.delivered i ++ δs :=
  Function.update_self _ _ _

lemma delivered_set_of_ne (h : j ≠ i) : (w.set i s δs).delivered j = w.delivered j :=
  Function.update_of_ne h _ _

lemma delivered_subset_set : {δ | δ ∈ w.delivered j} ⊆ {δ | δ ∈ (w.set i s δs).delivered j} := by
  by_cases h : j = i
  · subst h
    rw [delivered_set_self]
    exact fun δ hδ => List.mem_append_left δs hδ
  · rw [delivered_set_of_ne h]

end

/-! ### Nothing is forgotten -/

section

variable {actor : ι → Actor} {w : World ι S D} {i : ι} [DecidableEq ι] [Operable S D O R K]

lemma emitted_subset_step (e : Event ι O T) :
    {δ | δ ∈ w.emitted} ⊆ {δ | δ ∈ (w.step actor e).emitted} := by
  intro δ hδ
  cases e with
  | operate j op => exact List.mem_append_left _ hδ
  | offer j since => exact hδ
  | deliver j n =>
    rw [step]
    split <;> exact hδ

lemma delivered_subset_step (e : Event ι O T) :
    {δ | δ ∈ w.delivered i} ⊆ {δ | δ ∈ (w.step actor e).delivered i} := by
  cases e with
  | operate j op =>
    exact delivered_subset_set (s := (Operable.apply (w.replica j) (actor j) op).1)
  | offer j since => exact fun δ hδ => hδ
  | deliver j n =>
    rw [step]
    split
    · exact fun δ hδ => hδ
    · exact delivered_subset_set

lemma emitted_subset_run (es fs : List (Event ι O T)) :
    {δ | δ ∈ (run actor es : World ι S D).emitted} ⊆
      {δ | δ ∈ (run actor (es ++ fs) : World ι S D).emitted} := by
  induction fs using List.reverseRecOn with
  | nil => simp
  | append_singleton fs e ih =>
    rw [← List.append_assoc, run_append]
    exact ih.trans (emitted_subset_step e)

lemma delivered_subset_run (es fs : List (Event ι O T)) :
    {δ | δ ∈ (run actor es : World ι S D).delivered i} ⊆
      {δ | δ ∈ (run actor (es ++ fs) : World ι S D).delivered i} := by
  induction fs using List.reverseRecOn with
  | nil => simp
  | append_singleton fs e ih =>
    rw [← List.append_assoc, run_append]
    exact ih.trans (delivered_subset_step e)

end

/-! ### What every run keeps -/

variable {actor : ι ↪ Actor} {w : World ι S D} {i : ι} [Authored D] [Summary S D]

/-- Every replica holds the summary of what it has merged, all of which was handed out, and knows
everything that it handed out itself. -/
structure Sound (actor : ι ↪ Actor) (w : World ι S D) : Prop where
  coherent : Coherent {δ | δ ∈ w.emitted}
  nodup : w.emitted.Nodup
  summarizes : ∀ i, Summarizes (w.replica i) {δ | δ ∈ w.delivered i}
  delivered_subset : ∀ i, {δ | δ ∈ w.delivered i} ⊆ {δ | δ ∈ w.emitted}
  own : ∀ i, ∀ δ ∈ w.emitted, author δ = actor i → δ ∈ w.delivered i
  sent_subset : {δ | δ ∈ w.sent} ⊆ {δ | δ ∈ w.emitted}

variable [CausalTimestamp T D] [laws : Convergent S]

lemma sound_start : Sound actor (start : World ι S D) where
  coherent := by simpa [start] using Convergent.coherent_empty S
  nodup := List.nodup_nil
  summarizes _ := by simpa [start] using Convergent.summarizes_initial
  delivered_subset _ := by simp [start]
  own _ _ h := by simp [start] at h
  sent_subset := by simp [start]

lemma Sound.offer (h : Sound actor w) (since : Option T) : Sound actor (w.offer i since) where
  coherent := h.coherent
  nodup := h.nodup
  summarizes := h.summarizes
  delivered_subset := h.delivered_subset
  own := h.own
  sent_subset δ hδ := by
    rcases List.mem_append.mp hδ with hδ | hδ
    · exact h.sent_subset hδ
    · exact h.delivered_subset i (Convergent.mem_of_mem_deltasSince (h.summarizes i) hδ)

include laws in
/-- Replicas that have merged the same deltas are equal, also those of different runs. -/
lemma Sound.replica_eq {κ : Type} {actor' : κ ↪ Actor} {w' : World κ S D} {j : κ}
    (h : Sound actor w) (h' : Sound actor' w')
    (hsame : ∀ δ, δ ∈ w.delivered i ↔ δ ∈ w'.delivered j) : w.replica i = w'.replica j := by
  have hset : {δ | δ ∈ w.delivered i} = {δ | δ ∈ w'.delivered j} := Set.ext hsame
  refine Convergent.summarizes_unique h.coherent (h.delivered_subset i) (h.summarizes i) ?_
  rw [hset]
  exact h'.summarizes j

include laws in
lemma Sound.replica_eq_of_timestamp_eq {j : ι} (h : Sound actor w)
    (ht : timestamp (w.replica i) = timestamp (w.replica j)) : w.replica i = w.replica j :=
  Convergent.eq_of_timestamp_eq h.coherent (h.delivered_subset i) (h.delivered_subset j)
    (h.summarizes i) (h.summarizes j) ht

variable [DecidableEq ι]

lemma Sound.receive (h : Sound actor w) {δ : D} (hδ : δ ∈ w.emitted) :
    Sound actor (w.receive i δ) where
  coherent := h.coherent
  nodup := h.nodup
  summarizes j := by
    by_cases hj : j = i
    · subst hj
      have := Convergent.summarizes_merge h.coherent (h.delivered_subset j) hδ (h.summarizes j)
      rw [World.receive, replica_set_self, delivered_set_self]
      convert this using 1
      ext ε
      simp [or_comm]
    · rw [World.receive, replica_set_of_ne hj, delivered_set_of_ne hj]
      exact h.summarizes j
  delivered_subset j := by
    by_cases hj : j = i
    · subst hj
      rw [World.receive, delivered_set_self]
      intro ε hε
      rcases List.mem_append.mp hε with hε | hε
      · exact h.delivered_subset j hε
      · rwa [List.mem_singleton.mp hε]
    · rw [World.receive, delivered_set_of_ne hj]
      exact h.delivered_subset j
  own j ε hε ha := delivered_subset_set (h.own j ε hε ha)
  sent_subset := h.sent_subset

lemma Sound.emit (h : Sound actor w) {s : S} {δs : List D}
    (hout : HandsOut {δ | δ ∈ w.emitted} (actor i) (w.replica i) s δs) :
    Sound actor (w.emit i s δs) := by
  obtain ⟨hstate, hcoh, hauth, hfresh, hnodup⟩ := hout
  have hold : {δ | δ ∈ w.emitted} ⊆ {δ | δ ∈ w.emitted ++ δs} := fun δ hδ =>
    List.mem_append_left δs hδ
  have hnew : {δ | δ ∈ δs} ⊆ {δ | δ ∈ w.emitted ++ δs} := fun δ hδ =>
    List.mem_append_right w.emitted hδ
  have hcoh : Coherent {δ | δ ∈ w.emitted ++ δs} := by
    convert hcoh using 1
    ext δ
    simp
  refine ⟨hcoh, ?_, fun j => ?_, fun j => ?_, fun j δ hδ ha => ?_, fun δ hδ => ?_⟩
  · refine List.nodup_append.mpr ⟨h.nodup, hnodup, fun δ hδ ε hε => ?_⟩
    rintro rfl
    exact hfresh δ hε hδ
  · by_cases hj : j = i
    · subst hj
      have := Convergent.summarizes_mergeAll hcoh ((h.delivered_subset j).trans hold) hnew
        (h.summarizes j)
      simp only [World.emit, replica_set_self, delivered_set_self]
      rw [hstate]
      convert this using 1
      ext δ
      simp
    · simp only [World.emit, replica_set_of_ne hj, delivered_set_of_ne hj]
      exact h.summarizes j
  · by_cases hj : j = i
    · subst hj
      simp only [World.emit, delivered_set_self]
      exact fun δ hδ => (List.mem_append.mp hδ).elim (fun hδ => hold (h.delivered_subset j hδ))
        (fun hδ => hnew hδ)
    · simp only [World.emit, delivered_set_of_ne hj]
      exact (h.delivered_subset j).trans hold
  · rcases List.mem_append.mp hδ with hp | hn
    · exact delivered_subset_set (s := s) (h.own j δ hp ha)
    · -- a new delta is the changed replica's own, and no other replica has its actor
      have hj : j = i := actor.injective (ha.symm.trans (hauth δ hn))
      subst hj
      simp only [World.emit, delivered_set_self]
      exact List.mem_append_right _ hn
  · exact (List.mem_append.mp hδ).elim (fun hδ => hold (h.sent_subset hδ)) (fun hδ => hnew hδ)

variable [Operable S D O R K] [operations : HandsOutCoherently S]

include laws operations in
lemma Sound.operate (h : Sound actor w) (op : O) : Sound actor (w.operate actor i op) :=
  h.emit (HandsOutCoherently.handsOut_apply h.coherent (h.delivered_subset i) (h.summarizes i)
    (h.own i))

lemma Sound.step (h : Sound actor w) (e : Event ι O T) : Sound actor (w.step actor e) := by
  cases e with
  | operate i op => exact h.operate op
  | offer i since => exact h.offer since
  | deliver i n =>
    rw [World.step]
    split
    · exact h
    · rename_i δ hδ
      exact h.receive (h.sent_subset (List.mem_of_getElem? hδ))

/-- **Every run is sound.** -/
theorem sound_run (actor : ι ↪ Actor) (events : List (Event ι O T)) :
    Sound actor (run actor events : World ι S D) := by
  induction events using List.reverseRecOn with
  | nil => exact sound_start
  | append_singleton es e ih =>
    rw [run_append]
    exact ih.step e

end World

end DeltaRing
