import DeltaRing.Proofs.Parking.Queues
import Mathlib.Logic.Relation
import Mathlib.Tactic.Abel

/-!
No push is lost and none is doubled.

A ledger is kept beside a retry buffer: what was pushed for whom, what was drained and has not been
put back, what was cleared, and what was dropped for lack of room. Drained pushes are put back to
their own peer, each at most once, but otherwise in any number and order, whatever else is on its
way. Then every push is in one place, and the buffer's counts are those of the ledger.
-/

namespace DeltaRing

open Relation (ReflTransGen)

namespace RetryBuffer

variable {P M : Type}

def missing (queue kept : List (TaggedPush M)) : List (TaggedPush M) :=
  queue.filter fun p => kept.all fun k => k.seq ≠ p.seq

lemma missing_drop {queue : List (TaggedPush M)} (h : (queue.map TaggedPush.seq).Nodup) (n : Nat) :
    missing queue (queue.drop n) = queue.take n := by
  have hsplit : (queue.take n ++ queue.drop n).filter
      (fun p => (queue.drop n).all fun k => k.seq ≠ p.seq) = queue.take n := by
    rw [List.filter_append]
    have hapart : ∀ p ∈ queue.take n, ∀ k ∈ queue.drop n, k.seq ≠ p.seq := by
      rw [← List.take_append_drop n queue, List.map_append, List.nodup_append] at h
      exact fun p hp k hk heq => h.2.2 _ (List.mem_map_of_mem hp) _ (List.mem_map_of_mem hk) heq.symm
    have htaken : (queue.take n).filter (fun p => (queue.drop n).all fun k => k.seq ≠ p.seq) =
        queue.take n :=
      List.filter_eq_self.mpr fun p hp => List.all_eq_true.mpr fun k hk => by
        simpa using hapart p hp k hk
    have hkept : (queue.drop n).filter (fun p => (queue.drop n).all fun k => k.seq ≠ p.seq) = [] :=
      List.filter_eq_nil_iff.mpr fun p hp hall => by
        simpa using List.all_eq_true.mp hall p hp
    rw [htaken, hkept, List.append_nil]
  rwa [List.take_append_drop] at hsplit

end RetryBuffer

namespace Parking

open RetryBuffer

structure Ledger (P M : Type) [Key P] where
  buffer : RetryBuffer P M
  /-- All pushes in turn, with the peers that they were parked for. -/
  pushed : List (P × TaggedPush M)
  /-- What was drained and has not been put back. -/
  inFlight : Multiset (P × TaggedPush M)
  cleared : Multiset (P × TaggedPush M)
  /-- What was dropped for lack of room. -/
  evicted : Multiset (P × TaggedPush M)

namespace Ledger

variable {P M : Type} [Key P] {l l' : Ledger P M} {peer : P} {payload : M} {capacity : Nat}
  {pushes : List (TaggedPush M)} {rest : Multiset (P × TaggedPush M)}

def ofCapacity (capacity : Nat) : Ledger P M := ⟨.ofCapacity capacity, [], 0, 0, 0⟩

def push (l : Ledger P M) (peer : P) (payload : M) : Ledger P M where
  buffer := (l.buffer.push peer payload).1
  pushed := l.pushed ++ [(peer, ⟨l.buffer.currentSeq + 1, payload⟩)]
  inFlight := l.inFlight
  cleared := l.cleared
  evicted := l.evicted + under peer (l.buffer.push peer payload).2.toList

def drain (l : Ledger P M) (peer : P) : Ledger P M where
  buffer := (l.buffer.drain peer).1
  pushed := l.pushed
  inFlight := l.inFlight + under peer (l.buffer.drain peer).2
  cleared := l.cleared
  evicted := l.evicted

def clear (l : Ledger P M) (peer : P) : Ledger P M where
  buffer := l.buffer.clear peer
  pushed := l.pushed
  inFlight := l.inFlight
  cleared := l.cleared + under peer (l.buffer.queue peer)
  evicted := l.evicted

/-- Puts pushes back, after which `rest` is still on its way. -/
def requeue (l : Ledger P M) (peer : P) (pushes : List (TaggedPush M))
    (rest : Multiset (P × TaggedPush M)) : Ledger P M where
  buffer := l.buffer.requeue peer pushes
  pushed := l.pushed
  inFlight := rest
  cleared := l.cleared
  evicted := l.evicted + under peer
    (missing (pushes ++ l.buffer.queue peer) ((l.buffer.requeue peer pushes).queue peer))

/-- One operation on the buffer. Only what is in flight is put back, and to its own peer. -/
inductive Step (l : Ledger P M) : Ledger P M → Prop
  | push (peer : P) (payload : M) : Step l (l.push peer payload)
  | drain (peer : P) : Step l (l.drain peer)
  | clear (peer : P) : Step l (l.clear peer)
  | requeue {peer : P} {pushes : List (TaggedPush M)} {rest : Multiset (P × TaggedPush M)} :
    l.inFlight = under peer pushes + rest → Step l (l.requeue peer pushes rest)

def places (l : Ledger P M) : Multiset (P × TaggedPush M) :=
  l.buffer.parked + l.inFlight + l.cleared + l.evicted

lemma places_eq (l : Ledger P M) (peer : P) :
    l.places = under peer (l.buffer.queue peer) + (l.buffer.clear peer).parked + l.inFlight +
      l.cleared + l.evicted := by
  rw [places, parked_eq l.buffer peer]

/-- The ledger accounts for every push once, and agrees with the buffer. -/
structure Balanced (l : Ledger P M) : Prop where
  fits : l.buffer.Fits
  places : l.places = l.pushed
  seqs : l.pushed.map (fun e => e.2.seq) = List.range' 1 l.buffer.currentSeq
  evicted : l.buffer.evicted = l.evicted.card

lemma balanced_ofCapacity (capacity : Nat) : (ofCapacity capacity : Ledger P M).Balanced where
  fits := fits_ofCapacity capacity
  places := rfl
  seqs := rfl
  evicted := rfl

lemma Balanced.nodup_seqs (h : l.Balanced) (hle : under peer pushes ≤ l.places) :
    (pushes.map TaggedPush.seq).Nodup := by
  have hseqs : (l.places.map fun e => e.2.seq).Nodup := by
    rw [h.places, Multiset.map_coe, h.seqs, Multiset.coe_nodup]
    exact List.nodup_range'
  have hsome := Multiset.nodup_of_le (Multiset.map_le_map hle) hseqs
  simpa [under, Function.comp_def] using hsome

lemma Balanced.push (h : l.Balanced) (peer : P) (payload : M) :
    (l.push peer payload).Balanced where
  fits := h.fits.push
  places :=
    calc (l.push peer payload).places
        = ((l.buffer.push peer payload).1.parked +
            under peer (l.buffer.push peer payload).2.toList) + l.inFlight + l.cleared +
              l.evicted := by
          simp only [Ledger.places, Ledger.push]
          abel
      _ = l.places + under peer [⟨l.buffer.currentSeq + 1, payload⟩] := by
          rw [parked_push_add h.fits, pushedQueue, under_append, places_eq l peer]
          abel
      _ = ((l.push peer payload).pushed : Multiset _) := by
          rw [h.places]
          rfl
  seqs := by
    simp [Ledger.push, h.seqs, List.range'_1_concat, Nat.add_comm]
  evicted := by
    rw [Ledger.push, evicted_push h.fits, h.evicted, Multiset.card_add, card_under,
      (push_spec h.fits peer payload).2, length_take_excess]

lemma Balanced.drain (h : l.Balanced) (peer : P) : (l.drain peer).Balanced where
  fits := h.fits.clear
  places := by
    refine Eq.trans ?_ h.places
    rw [places_eq l peer]
    change (l.buffer.clear peer).parked + (l.inFlight + under peer (l.buffer.queue peer)) +
      l.cleared + l.evicted = _
    abel
  seqs := h.seqs
  evicted := h.evicted

lemma Balanced.clear (h : l.Balanced) (peer : P) : (l.clear peer).Balanced where
  fits := h.fits.clear
  places := by
    refine Eq.trans ?_ h.places
    rw [places_eq l peer]
    change (l.buffer.clear peer).parked + l.inFlight +
      (l.cleared + under peer (l.buffer.queue peer)) + l.evicted = _
    abel
  seqs := h.seqs
  evicted := h.evicted

lemma Balanced.nodup_requeued (h : l.Balanced) (hrest : l.inFlight = under peer pushes + rest) :
    ((pushes ++ l.buffer.queue peer).map TaggedPush.seq).Nodup := by
  have hplaces : l.places = under peer (pushes ++ l.buffer.queue peer) +
      ((l.buffer.clear peer).parked + rest + l.cleared + l.evicted) := by
    rw [places_eq l peer, hrest, under_append]
    abel
  have hsome : under peer (pushes ++ l.buffer.queue peer) ≤ l.places :=
    Multiset.le_iff_exists_add.mpr ⟨_, hplaces⟩
  exact h.nodup_seqs hsome

/-- What goes to make room is the beginning of the queue that pushes are put back to. -/
lemma Balanced.evicted_requeue (h : l.Balanced) (hrest : l.inFlight = under peer pushes + rest) :
    let queue := pushes ++ l.buffer.queue peer
    (l.requeue peer pushes rest).evicted =
      l.evicted + under peer (queue.take (queue.length - l.buffer.capacity)) := by
  intro queue
  rw [Ledger.requeue, queue_requeue_self h.fits, missing_drop (h.nodup_requeued hrest)]

lemma Balanced.requeue (h : l.Balanced) (hrest : l.inFlight = under peer pushes + rest) :
    (l.requeue peer pushes rest).Balanced := by
  set queue := pushes ++ l.buffer.queue peer with hqueue
  have hdropped : (l.requeue peer pushes rest).evicted =
      l.evicted + under peer (queue.take (queue.length - l.buffer.capacity)) :=
    h.evicted_requeue hrest
  refine ⟨h.fits.requeue, ?_, ?_, ?_⟩
  · calc (l.requeue peer pushes rest).places
        = ((l.buffer.requeue peer pushes).parked +
            under peer (queue.take (queue.length - l.buffer.capacity))) + rest + l.cleared +
              l.evicted := by
          rw [Ledger.places, hdropped, Ledger.requeue]
          abel
      _ = l.places := by
          rw [parked_requeue_add h.fits, under_append, places_eq l peer, hrest]
          abel
      _ = _ := h.places
  · rw [Ledger.requeue, currentSeq_requeue]
    exact h.seqs
  · rw [hdropped, Ledger.requeue, RetryBuffer.evicted_requeue h.fits, h.evicted, Multiset.card_add,
      card_under, length_take_excess]

lemma Balanced.step (h : l.Balanced) (hstep : Step l l') : l'.Balanced := by
  cases hstep with
  | push peer payload => exact h.push peer payload
  | drain peer => exact h.drain peer
  | clear peer => exact h.clear peer
  | requeue hrest => exact h.requeue hrest

lemma balanced_of_steps (hsteps : ReflTransGen Step (ofCapacity capacity) l) : l.Balanced := by
  induction hsteps with
  | refl => exact balanced_ofCapacity capacity
  | tail _ hstep ih => exact ih.step hstep

lemma capacity_of_steps (hsteps : ReflTransGen Step (ofCapacity capacity) l) :
    l.buffer.capacity = max capacity 1 := by
  induction hsteps with
  | refl => rfl
  | tail _ hstep ih =>
    cases hstep with
    | push peer payload => exact capacity_push.trans ih
    | drain peer => exact ih
    | clear peer => exact ih
    | requeue _ => exact capacity_requeue.trans ih

/-- **Every push is in one place.** However drained pushes are put back to their peers, everything
that was pushed is, once, in the queue of its peer, in flight, cleared or dropped; the pushes are
numbered from one on; as many were dropped as the buffer says; no queue holds more than there is
room for; and the peers are those with something parked, which add up to the buffer's size. -/
theorem every_push_is_in_one_place (hsteps : ReflTransGen Step (ofCapacity capacity) l) :
    l.buffer.parked + l.inFlight + l.cleared + l.evicted = l.pushed ∧
    l.pushed.map (fun e => e.2.seq) = List.range' 1 l.buffer.currentSeq ∧
    l.buffer.evicted = l.evicted.card ∧
    (∀ peer, l.buffer.pendingFor peer ≤ max capacity 1) ∧
    l.buffer.size = total (l.buffer.peers.map l.buffer.pendingFor) ∧
    l.buffer.peers.Nodup ∧
    ∀ peer, peer ∈ l.buffer.peers ↔ l.buffer.queue peer ≠ [] := by
  have h := balanced_of_steps hsteps
  refine ⟨h.places, h.seqs, h.evicted, fun peer => ?_, size_eq _, nodup_peers _,
    fun peer => mem_peers⟩
  rw [← capacity_of_steps hsteps]
  exact h.fits peer

/-- Two pushes for the peer 0 are drained one by one. Both are put back, the earlier one first,
around a third push, and a queue has room for two; one push for the peer 1 is cleared, and the next
one drained. -/
def overlapping : Ledger Nat Nat :=
  let drained := (((ofCapacity 2).push 0 10).drain 0).push 0 20 |>.drain 0
  let replayed := ((drained.requeue 0 [⟨1, 10⟩] {(0, ⟨2, 20⟩)}).push 0 30).requeue 0 [⟨2, 20⟩] 0
  (((replayed.push 1 40).clear 1).push 1 50).drain 1

/-- Here the second push is the one that was dropped. -/
theorem overlapping_in_place :
    ReflTransGen Step (ofCapacity 2) overlapping ∧
    overlapping.evicted = {(0, ⟨2, 20⟩)} ∧
    overlapping.buffer.parked + {(1, ⟨5, 50⟩)} + {(1, ⟨4, 40⟩)} + {(0, ⟨2, 20⟩)} =
      overlapping.pushed ∧
    overlapping.buffer.evicted = 1 ∧
    overlapping.buffer.size = 2 ∧
    overlapping.buffer.peers = [0] := by
  have hsteps : ReflTransGen Step (ofCapacity 2) overlapping := by
    refine .tail (.tail (.tail (.tail (.tail (.tail (.tail (.tail (.tail (.tail (.tail .refl
      (.push 0 10)) (.drain 0)) (.push 0 20)) (.drain 0)) (.requeue ?_)) (.push 0 30))
      (.requeue ?_)) (.push 1 40)) (.clear 1)) (.push 1 50)) (.drain 1)
    · decide +kernel
    · decide +kernel
  obtain ⟨hplaces, -, hevicted, -, hsize, -⟩ := every_push_is_in_one_place hsteps
  have hdropped : overlapping.evicted = {(0, ⟨2, 20⟩)} := by decide +kernel
  have hpeers : overlapping.buffer.peers = [0] := by decide +kernel
  refine ⟨hsteps, hdropped, ?_, ?_, ?_, hpeers⟩
  · rwa [hdropped] at hplaces
  · rw [hevicted, hdropped, Multiset.card_singleton]
  · rw [hsize, hpeers]
    rfl

end Ledger

end Parking

end DeltaRing
