import DeltaRing.Proofs.Replication.Family
import DeltaRing.Proofs.Replication.Run

/-!
One exchange of what the other lacks is enough.

A listing leaves out additions that were buried and writes that were beaten, so it is not what the
replica has merged. Still, whoever merges it reflects everything that the replica has merged, as
long as the timestamp that it was made for is not ahead of the one who merges it.
-/

namespace DeltaRing

namespace World

variable {ι S D T O R K : Type} [CausalTimestamp T D] [DeltaCrdt S D T]

/-- The timestamp reflects no more of what was handed out than the replica does. -/
def NotAhead (w : World ι S D) (i : ι) (since : Option T) : Prop :=
  ∀ t ∈ since, ∀ δ ∈ w.emitted, reflects t δ = true → reflects (timestamp (w.replica i)) δ = true

variable [Authored D] [Summary S D] [laws : Convergent S] {actor : ι ↪ Actor} {w : World ι S D}
  {a b : ι} {since since' : Option T} {ds ds' : List D}

lemma Sound.summarizes_exchange (h : Sound actor w) (hsince : w.NotAhead b since)
    (hds : ∀ δ, δ ∈ ds ↔ δ ∈ deltasSince (w.replica a) since) :
    Summarizes (mergeAll (w.replica b) ds).1 ({δ | δ ∈ w.delivered a} ∪ {δ | δ ∈ w.delivered b}) :=
  Convergent.summarizes_after_deltasSince h.coherent (h.delivered_subset a) (h.delivered_subset b)
    (h.summarizes a) (h.summarizes b) hsince hds

lemma Sound.timestamp_exchange (h : Sound actor w) (hsince : w.NotAhead b since)
    (hds : ∀ δ, δ ∈ ds ↔ δ ∈ deltasSince (w.replica a) since) :
    timestamp (mergeAll (w.replica b) ds).1
      = Lattice.join (timestamp (w.replica a)) (timestamp (w.replica b)) :=
  Convergent.timestamp_union h.coherent (h.delivered_subset a) (h.delivered_subset b)
    (h.summarizes a) (h.summarizes b) (h.summarizes_exchange hsince hds)

/-- Both ways, two replicas become equal. -/
lemma Sound.exchange_comm (h : Sound actor w) (hsince : w.NotAhead b since)
    (hsince' : w.NotAhead a since') (hds : ∀ δ, δ ∈ ds ↔ δ ∈ deltasSince (w.replica a) since)
    (hds' : ∀ δ, δ ∈ ds' ↔ δ ∈ deltasSince (w.replica b) since') :
    (mergeAll (w.replica b) ds).1 = (mergeAll (w.replica a) ds').1 := by
  have hb := h.summarizes_exchange hsince hds
  have ha := h.summarizes_exchange hsince' hds'
  rw [Set.union_comm] at ha
  exact Convergent.summarizes_unique h.coherent
    (Set.union_subset (h.delivered_subset a) (h.delivered_subset b)) hb ha

lemma Sound.mergeAll_full_history (h : Sound actor w)
    (hds : ∀ δ, δ ∈ ds ↔ δ ∈ deltasSince (w.replica a) none) :
    (mergeAll initial ds).1 = w.replica a := by
  have hnew : Summarizes (initial : S) {δ | δ ∈ ([] : List D)} := by
    simpa using Convergent.summarizes_initial
  have := Convergent.summarizes_after_deltasSince h.coherent (h.delivered_subset a) (by simp)
    (h.summarizes a) hnew (by simp) hds
  refine Convergent.summarizes_unique h.coherent (h.delivered_subset a) ?_ (h.summarizes a)
  simpa using this

variable [DecidableEq ι] [Operable S D O R K] [operations : HandsOutCoherently S]

include laws operations in
lemma notAhead_of_past (actor : ι ↪ Actor) (past rest : List (Event ι O T)) :
    (run actor (past ++ rest) : World ι S D).NotAhead b
      (some (timestamp ((run actor past : World ι S D).replica b))) := by
  rintro t ht δ hδ hr
  cases ht
  have h : Sound actor (run actor (past ++ rest) : World ι S D) := sound_run actor _
  have hpast : Sound actor (run actor past : World ι S D) := sound_run actor past
  exact Convergent.reflects_mono h.coherent
    ((delivered_subset_run past rest).trans (h.delivered_subset b)) (h.delivered_subset b)
    (hpast.summarizes b) (h.summarizes b) (delivered_subset_run past rest) hδ hr

end World

open World

/-- **Anti-entropy is complete.** Whoever merges what another replica lists for a timestamp that is
not ahead, in any order and with repetitions, has the join of both timestamps. Both ways, the two
become equal, and a new replica becomes equal to the one that lists its full history for it. What a
replica was earlier in the run is a timestamp not ahead of it. -/
theorem anti_entropy_complete {ι : Type} [DecidableEq ι] (F : Family) (actor : ι ↪ Actor)
    (events : List (Event ι F.Operation F.Timestamp)) (a b : ι) :
    let w : World ι F.State F.Delta := run actor events
    (∀ since ds, w.NotAhead b since → (∀ δ, δ ∈ ds ↔ δ ∈ deltasSince (w.replica a) since) →
      timestamp (mergeAll (w.replica b) ds).1
        = Lattice.join (timestamp (w.replica a)) (timestamp (w.replica b))) ∧
    (∀ since since' ds ds', w.NotAhead b since → w.NotAhead a since' →
      (∀ δ, δ ∈ ds ↔ δ ∈ deltasSince (w.replica a) since) →
      (∀ δ, δ ∈ ds' ↔ δ ∈ deltasSince (w.replica b) since') →
      (mergeAll (w.replica b) ds).1 = (mergeAll (w.replica a) ds').1) ∧
    (∀ ds, (∀ δ, δ ∈ ds ↔ δ ∈ deltasSince (w.replica a) none) →
      (mergeAll initial ds).1 = w.replica a) ∧
    w.NotAhead b none ∧
    ∀ past rest, events = past ++ rest →
      w.NotAhead b (some (timestamp ((run actor past : World ι F.State F.Delta).replica b))) := by
  intro w
  have h : Sound actor w := sound_run actor events
  refine ⟨fun since ds hsince hds => h.timestamp_exchange hsince hds,
    fun since since' ds ds' hsince hsince' hds hds' => h.exchange_comm hsince hsince' hds hds',
    fun ds hds => h.mergeAll_full_history hds, fun t ht => ?_, ?_⟩
  · cases ht
  · rintro past rest hevents
    have := notAhead_of_past (b := b) actor past rest (S := F.State)
    rwa [← hevents] at this

/-- A replica adds two items, and another receives the first in between. -/
def additionsApart : List (Event Bool (Family.orSet Nat).Operation (Family.orSet Nat).Timestamp) :=
  [.operate false (OrSetOperation.add 7), .deliver true 0, .operate false (OrSetOperation.add 8)]

/-- The listing for a digest from before the first delivery fills the gap as well. -/
theorem exchange_by_stale_digest :
    let w : World Bool (Family.orSet Nat).State (Family.orSet Nat).Delta :=
      run twoActors additionsApart
    let before : World Bool (Family.orSet Nat).State (Family.orSet Nat).Delta :=
      run twoActors (additionsApart.take 1)
    timestamp (mergeAll (w.replica true)
        (deltasSince (w.replica false) (some (timestamp (before.replica true))))).1
      = Lattice.join (timestamp (w.replica false)) (timestamp (w.replica true)) := by
  have h := anti_entropy_complete (.orSet Nat) twoActors additionsApart false true
  have hstale := h.2.2.2.2 (additionsApart.take 1) (additionsApart.drop 1) rfl
  exact h.1 _ _ hstale fun _ => Iff.rfl

end DeltaRing
