import DeltaRing.Encoded
import DeltaRing.Proofs.Exchange.LiveStream
import DeltaRing.Proofs.Replication.Freshness
import DeltaRing.Proofs.Wire.Replicated

/-!
To cover a timestamp is to need nothing from its holder.

Whether a timestamp is below another is decided by joining them, and what a replica lists for a
timestamp is decided delta by delta. The two agree on replicas of one run: buried additions, gaps
between dots and keys whose values have nothing to list never make a replica look behind when there
is nothing to send to it, nor up to date when there is.
-/

namespace DeltaRing

namespace World

variable {ι S D T : Type} [DecidableEq T] [CausalTimestamp T D] [DeltaCrdt S D T] [Authored D]
  [Summary S D] [Convergent S] {actor : ι ↪ Actor} {w : World ι S D} {a b : ι}

lemma Sound.deltasSince_eq_nil_of_leq [Listing S] [Retentive S] (h : Sound actor w)
    (hle : Lattice.leq (timestamp (w.replica a)) (timestamp (w.replica b)) = true) :
    deltasSince (w.replica a) (some (timestamp (w.replica b))) = [] := by
  refine List.eq_nil_iff_forall_not_mem.mpr fun δ hδ => ?_
  have hmerged := Convergent.mem_of_mem_deltasSince (h.summarizes a) hδ
  have hknown := Retentive.reflects_of_leq hle
    (Convergent.reflects_of_mem h.coherent (h.delivered_subset a) (h.summarizes a) hmerged)
  rw [(Listing.mem_deltasSince_some.mp hδ).2] at hknown
  cases hknown

/-- A replica that there is nothing to send to covers the sender: it is as if a stream for it had
ended before the first batch. -/
lemma Sound.leq_of_deltasSince_eq_nil [Observant S] (h : Sound actor w)
    (hleft : deltasSince (w.replica a) (some (timestamp (w.replica b))) = []) :
    Lattice.leq (timestamp (w.replica a)) (timestamp (w.replica b)) = true := by
  have hsent : ∀ δ ∈ [], δ ∈ w.delivered b := by simp
  exact DeltaRing.leq_of_deltasSince_eq_nil h.coherent (h.delivered_subset a)
    (h.delivered_subset b) (h.summarizes a) (h.summarizes b) (fun _ _ => id) hsent hleft

end World

/-- **Coverage is exact.** In any run, a replica covers the timestamp of another if and only if the
other lists nothing for it, and this is what a replica answers when it is asked whether it covers an
encoded timestamp. -/
theorem leq_timestamp_iff_deltasSince_eq_nil {ι : Type} [DecidableEq ι] (F : Family)
    [DecidableEq F.Timestamp] [Wire F.Delta] [Wire F.Timestamp] (actor : ι ↪ Actor)
    (events : List (Event ι F.Operation F.Timestamp)) (a b : ι) :
    let w : World ι F.State F.Delta := World.run actor events
    (Lattice.leq (timestamp (w.replica a)) (timestamp (w.replica b)) = true ↔
      deltasSince (w.replica a) (some (timestamp (w.replica b))) = []) ∧
    ∀ ts, Wire.decode ts = .ok (timestamp (w.replica a)) →
      Encoded.covers (w.replica b) ts
        = .ok (deltasSince (w.replica a) (some (timestamp (w.replica b)))).isEmpty := by
  intro w
  have h : w.Sound actor := World.sound_run actor events
  have hiff : Lattice.leq (timestamp (w.replica a)) (timestamp (w.replica b)) = true ↔
      deltasSince (w.replica a) (some (timestamp (w.replica b))) = [] :=
    ⟨h.deltasSince_eq_nil_of_leq, h.leq_of_deltasSince_eq_nil⟩
  refine ⟨hiff, fun ts hts => ?_⟩
  have hanswer : Encoded.covers (w.replica b) ts
      = .ok (Lattice.leq (timestamp (w.replica a)) (timestamp (w.replica b))) := by
    rw [Encoded.covers, hts]
    rfl
  rw [hanswer, Except.ok.injEq, Bool.eq_iff_iff, hiff, List.isEmpty_iff]

/-- One replica adds two items, the other receives the second, buries it and adds a third. -/
def buriedAcrossGap :
    List (Event Bool (Family.orSet Nat).Operation (Family.orSet Nat).Timestamp) :=
  [.operate false (OrSetOperation.add 7), .operate false (OrSetOperation.add 8), .deliver true 1,
    .operate true (OrSetOperation.remove 8), .deliver false 2, .operate true (OrSetOperation.add 9)]

/-- The one that knows of the burial still has the first item to send, and is asked for it. -/
theorem covers_buriedAcrossGap :
    let w : World Bool (OrSet Nat) (OrSetDelta Nat) := World.run twoActors buriedAcrossGap
    Wire.decode (Encoded.timestampOf (w.replica false)) = .ok (timestamp (w.replica false)) ∧
    Encoded.covers (w.replica true) (Encoded.timestampOf (w.replica false)) = .ok false := by
  intro w
  have hfits : LawfulWire.Fits (timestamp (w.replica false)) := by
    rw [LawfulWire.fits_context_iff]
    decide +kernel
  have hdecode : Wire.decode (Encoded.timestampOf (w.replica false))
      = .ok (timestamp (w.replica false)) := LawfulWire.decode_encode hfits (by decide)
  have hleft : (deltasSince (w.replica false) (some (timestamp (w.replica true)))).isEmpty = false :=
    by decide +kernel
  have h := @leq_timestamp_iff_deltasSince_eq_nil Bool _ (.orSet Nat)
    (inferInstanceAs (DecidableEq CausalContext)) _ _ twoActors buriedAcrossGap false true
  exact ⟨hdecode, (h.2 _ hdecode).trans (congrArg Except.ok hleft)⟩

end DeltaRing
