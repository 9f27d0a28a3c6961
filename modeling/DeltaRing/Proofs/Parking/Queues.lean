import DeltaRing.Proofs.Collections.SortedMap
import DeltaRing.RetryBuffer
import Mathlib.Algebra.Order.Group.Multiset

/-!
The queues of a retry buffer.

A push and a requeue both give one peer a longer queue and then bring it down to what there is room
for, from the front; a drain and a clear take a queue away. All that is parked is what these
operations leave in the queue of their peer, besides what is parked for the other peers.
-/

namespace DeltaRing

namespace SortedMap

variable {K V : Type} [Key K]

lemma entries_insert_perm (m : SortedMap K V) (k : K) (v : V) :
    (m.insert k v).entries.Perm ((k, v) :: (m.erase k).entries) := by
  have hfresh : (k, v) ∉ (m.erase k).entries := by simp [mem_entries_iff]
  refine (List.perm_ext_iff_of_nodup (nodup_entries _)
    (List.nodup_cons.mpr ⟨hfresh, nodup_entries _⟩)).mpr fun ⟨k', w⟩ => ?_
  rw [List.mem_cons, mem_entries_iff, mem_entries_iff, Prod.mk.injEq]
  by_cases hk : k' = k
  · subst hk
    simp [eq_comm]
  · simp [get?_insert_of_ne hk, get?_erase_of_ne hk, hk]

lemma erase_of_get?_eq_none {m : SortedMap K V} {k : K} (h : m.get? k = none) : m.erase k = m := by
  ext k' : 1
  by_cases hk : k' = k
  · subst hk
    rw [get?_erase_self, h]
  · rw [get?_erase_of_ne hk]

end SortedMap

namespace RetryBuffer

/-! ### Pushes of one peer -/

def under {P M : Type} (peer : P) (pushes : List (TaggedPush M)) : Multiset (P × TaggedPush M) :=
  pushes.map (Prod.mk peer)

@[simp] lemma under_nil {P M : Type} (peer : P) :
    under peer ([] : List (TaggedPush M)) = 0 := rfl

lemma under_append {P M : Type} (peer : P) (pushes queue : List (TaggedPush M)) :
    under peer (pushes ++ queue) = under peer pushes + under peer queue := by
  simp [under]

@[simp] lemma card_under {P M : Type} (peer : P) (pushes : List (TaggedPush M)) :
    (under peer pushes).card = pushes.length := by
  simp [under]

lemma under_take_add_drop {P M : Type} (peer : P) (n : Nat)
    (pushes : List (TaggedPush M)) :
    under peer (pushes.take n) + under peer (pushes.drop n) = under peer pushes := by
  rw [← under_append, List.take_append_drop]

lemma length_take_excess {M : Type} (queue : List (TaggedPush M)) (capacity : Nat) :
    (queue.take (queue.length - capacity)).length = queue.length - capacity := by
  rw [List.length_take, Nat.min_eq_left (Nat.sub_le _ _)]

variable {P M : Type} [Key P] {b : RetryBuffer P M} {peer peer' : P} {payload : M}
  {pushes queue : List (TaggedPush M)}

/-! ### One queue after an operation -/

/-- Gives a peer another queue, or as much of its end as there is room for. -/
def setQueue (b : RetryBuffer P M) (peer : P) (queue : List (TaggedPush M)) : RetryBuffer P M :=
  let excess := queue.length - b.capacity
  { b with queues := b.queues.insert peer (queue.drop excess), evicted := b.evicted + excess }

@[simp] lemma currentSeq_setQueue : (b.setQueue peer queue).currentSeq = b.currentSeq := rfl

@[simp] lemma capacity_setQueue : (b.setQueue peer queue).capacity = b.capacity := rfl

@[simp] lemma evicted_setQueue :
    (b.setQueue peer queue).evicted = b.evicted + (queue.length - b.capacity) := rfl

@[simp] lemma queue_setQueue_self :
    (b.setQueue peer queue).queue peer = queue.drop (queue.length - b.capacity) := by
  simp [setQueue, RetryBuffer.queue, SortedMap.getD]

lemma queue_setQueue_of_ne (h : peer' ≠ peer) :
    (b.setQueue peer queue).queue peer' = b.queue peer' := by
  simp [setQueue, RetryBuffer.queue, SortedMap.getD, SortedMap.get?_insert_of_ne h]

@[simp] lemma queue_clear_self : (b.clear peer).queue peer = [] := by
  simp [clear, RetryBuffer.queue, SortedMap.getD]

lemma queue_clear_of_ne (h : peer' ≠ peer) : (b.clear peer).queue peer' = b.queue peer' := by
  simp [clear, RetryBuffer.queue, SortedMap.getD, SortedMap.get?_erase_of_ne h]

def Fits (b : RetryBuffer P M) : Prop := ∀ peer, (b.queue peer).length ≤ b.capacity

lemma Fits.excess (h : b.Fits) (peer : P) : (b.queue peer).length - b.capacity = 0 :=
  Nat.sub_eq_zero_of_le (h peer)

def pushedQueue (b : RetryBuffer P M) (peer : P) (payload : M) : List (TaggedPush M) :=
  b.queue peer ++ [⟨b.currentSeq + 1, payload⟩]

lemma push_eq_ite : b.push peer payload =
    if b.capacity < (b.pushedQueue peer payload).length then
      ({ b with
          currentSeq := b.currentSeq + 1
          queues := b.queues.insert peer (b.pushedQueue peer payload).tail
          evicted := b.evicted + 1 },
        (b.pushedQueue peer payload).head?)
    else
      ({ b with
          currentSeq := b.currentSeq + 1
          queues := b.queues.insert peer (b.pushedQueue peer payload) },
        none) := rfl

/-- What is more than there is room for is the one that was there longest, and it is given back. -/
lemma push_spec (h : b.Fits) (peer : P) (payload : M) :
    (b.push peer payload).1 =
        { b with currentSeq := b.currentSeq + 1 }.setQueue peer (b.pushedQueue peer payload) ∧
      (b.push peer payload).2.toList =
        (b.pushedQueue peer payload).take ((b.pushedQueue peer payload).length - b.capacity) := by
  have hlength : (b.pushedQueue peer payload).length ≤ b.capacity + 1 := by
    simpa [pushedQueue] using h peer
  rw [push_eq_ite]
  generalize b.pushedQueue peer payload = queue at hlength ⊢
  split
  · have hexcess : queue.length - b.capacity = 1 := by omega
    simp [setQueue, hexcess, List.take_one]
  · have hexcess : queue.length - b.capacity = 0 := by omega
    simp [setQueue, hexcess]

lemma requeue_eq (h : pushes ≠ []) :
    b.requeue peer pushes = b.setQueue peer (pushes ++ b.queue peer) := by
  rw [requeue, if_neg (by simpa using h)]
  rfl

lemma queue_push_self (h : b.Fits) : (b.push peer payload).1.queue peer =
    (b.pushedQueue peer payload).drop ((b.pushedQueue peer payload).length - b.capacity) := by
  rw [(push_spec h peer payload).1, queue_setQueue_self]

lemma queue_push_of_ne (h : b.Fits) (hp : peer' ≠ peer) :
    (b.push peer payload).1.queue peer' = b.queue peer' := by
  rw [(push_spec h peer payload).1, queue_setQueue_of_ne hp]
  rfl

@[simp] lemma currentSeq_push : (b.push peer payload).1.currentSeq = b.currentSeq + 1 := by
  rw [push_eq_ite]
  split <;> rfl

@[simp] lemma capacity_push : (b.push peer payload).1.capacity = b.capacity := by
  rw [push_eq_ite]
  split <;> rfl

lemma evicted_push (h : b.Fits) : (b.push peer payload).1.evicted =
    b.evicted + ((b.pushedQueue peer payload).length - b.capacity) := by
  rw [(push_spec h peer payload).1, evicted_setQueue]

lemma queue_requeue_self (h : b.Fits) : (b.requeue peer pushes).queue peer =
    (pushes ++ b.queue peer).drop ((pushes ++ b.queue peer).length - b.capacity) := by
  by_cases hnone : pushes = []
  · subst hnone
    rw [List.nil_append, h.excess]
    rfl
  · rw [requeue_eq hnone, queue_setQueue_self]

lemma evicted_requeue (h : b.Fits) : (b.requeue peer pushes).evicted =
    b.evicted + ((pushes ++ b.queue peer).length - b.capacity) := by
  by_cases hnone : pushes = []
  · subst hnone
    rw [List.nil_append, h.excess]
    rfl
  · rw [requeue_eq hnone, evicted_setQueue]

lemma queue_requeue_of_ne (hp : peer' ≠ peer) :
    (b.requeue peer pushes).queue peer' = b.queue peer' := by
  by_cases hnone : pushes = []
  · subst hnone
    rfl
  · rw [requeue_eq hnone, queue_setQueue_of_ne hp]

@[simp] lemma currentSeq_requeue : (b.requeue peer pushes).currentSeq = b.currentSeq := by
  rw [requeue]
  split <;> rfl

@[simp] lemma capacity_requeue : (b.requeue peer pushes).capacity = b.capacity := by
  rw [requeue]
  split <;> rfl

lemma Fits.setQueue (h : b.Fits) : (b.setQueue peer queue).Fits := by
  intro peer'
  by_cases hp : peer' = peer
  · subst hp
    rw [queue_setQueue_self, List.length_drop, capacity_setQueue]
    omega
  · rw [queue_setQueue_of_ne hp]
    exact h peer'

lemma Fits.clear (h : b.Fits) : (b.clear peer).Fits := by
  intro peer'
  by_cases hp : peer' = peer
  · subst hp
    simp
  · rw [queue_clear_of_ne hp]
    exact h peer'

lemma Fits.push (h : b.Fits) : (b.push peer payload).1.Fits := by
  have hcounted : Fits { b with currentSeq := b.currentSeq + 1 } := h
  rw [(push_spec h peer payload).1]
  exact hcounted.setQueue

lemma Fits.requeue (h : b.Fits) : (b.requeue peer pushes).Fits := by
  by_cases hnone : pushes = []
  · subst hnone
    exact h
  · rw [requeue_eq hnone]
    exact h.setQueue

lemma fits_ofCapacity (capacity : Nat) : (ofCapacity capacity : RetryBuffer P M).Fits :=
  fun _ => Nat.zero_le _

/-! ### Buffers as they are kept -/

/-- A queue has room for a push, none holds more than there is room for, and all numbers have been
handed out. -/
structure WellKept (b : RetryBuffer P M) : Prop where
  room : 0 < b.capacity
  fits : b.Fits
  numbered : ∀ peer, ∀ p ∈ b.queue peer, p.seq ≤ b.currentSeq

lemma wellKept_ofCapacity (capacity : Nat) : (ofCapacity capacity : RetryBuffer P M).WellKept where
  room := Nat.lt_of_lt_of_le Nat.zero_lt_one (Nat.le_max_right ..)
  fits := fits_ofCapacity capacity
  numbered _ _ hp := absurd hp List.not_mem_nil

lemma WellKept.push (h : b.WellKept) : (b.push peer payload).1.WellKept where
  room := by rw [capacity_push]; exact h.room
  fits := h.fits.push
  numbered peer' p hp := by
    rw [currentSeq_push]
    by_cases hpeer : peer' = peer
    · subst hpeer
      rw [queue_push_self h.fits] at hp
      rcases List.mem_append.mp (List.mem_of_mem_drop hp) with hp | hp
      · exact Nat.le_succ_of_le (h.numbered peer' p hp)
      · rw [List.mem_singleton.mp hp]
    · rw [queue_push_of_ne h.fits hpeer] at hp
      exact Nat.le_succ_of_le (h.numbered peer' p hp)

/-- What is pushed is the newest of its queue. -/
lemma WellKept.getLast?_push (h : b.WellKept) :
    ((b.push peer payload).1.queue peer).getLast? = some ⟨b.currentSeq + 1, payload⟩ := by
  have hexcess : (b.queue peer ++ [⟨b.currentSeq + 1, payload⟩] : List (TaggedPush M)).length -
      b.capacity ≤ (b.queue peer).length := by
    have hroom := h.room
    rw [List.length_append, List.length_singleton]
    omega
  rw [queue_push_self h.fits, pushedQueue, List.drop_append_of_le_length hexcess,
    List.getLast?_concat]

lemma WellKept.clear (h : b.WellKept) : (b.clear peer).WellKept where
  room := h.room
  fits := h.fits.clear
  numbered peer' p hp := by
    by_cases hpeer : peer' = peer
    · subst hpeer
      rw [queue_clear_self] at hp
      cases hp
    · rw [queue_clear_of_ne hpeer] at hp
      exact h.numbered peer' p hp

/-- Pushes that were parked before can be put back. -/
lemma WellKept.requeue (h : b.WellKept) (hpushes : ∀ p ∈ pushes, p.seq ≤ b.currentSeq) :
    (b.requeue peer pushes).WellKept where
  room := by rw [capacity_requeue]; exact h.room
  fits := h.fits.requeue
  numbered peer' p hp := by
    rw [currentSeq_requeue]
    by_cases hpeer : peer' = peer
    · subst hpeer
      rw [queue_requeue_self h.fits] at hp
      exact (List.mem_append.mp (List.mem_of_mem_drop hp)).elim (hpushes p) (h.numbered peer' p)
    · rw [queue_requeue_of_ne hpeer] at hp
      exact h.numbered peer' p hp

/-! ### All that is parked -/

lemma queue_of_mem (h : (peer, queue) ∈ b.queues.entries) : b.queue peer = queue := by
  rw [RetryBuffer.queue, SortedMap.getD, SortedMap.mem_entries_iff.mp h, Option.getD_some]

lemma map_peers (b : RetryBuffer P M) :
    (b.peers.map fun peer => (peer, b.queue peer)) =
      b.queues.entries.filter fun e => !e.2.isEmpty := by
  rw [peers, List.map_filterMap, ← List.filterMap_eq_filter]
  refine List.filterMap_congr fun ⟨peer, queue⟩ he => ?_
  dsimp only
  cases queue <;> simp [queue_of_mem he, Option.guard]

lemma nodup_peers (b : RetryBuffer P M) : b.peers.Nodup := by
  have hkeys : b.peers = (b.peers.map fun peer => (peer, b.queue peer)).map Prod.fst := by
    simp [Function.comp_def]
  rw [hkeys, map_peers]
  exact b.queues.nodup_keys.sublist (List.filter_sublist.map _)

lemma mem_peers : peer ∈ b.peers ↔ b.queue peer ≠ [] := by
  have hpair : peer ∈ b.peers ↔
      (peer, b.queue peer) ∈ b.peers.map fun peer => (peer, b.queue peer) := by
    simp
  rw [hpair, map_peers, List.mem_filter, SortedMap.mem_entries_iff, RetryBuffer.queue,
    SortedMap.getD]
  cases b.queues.get? peer <;> simp

lemma size_eq (b : RetryBuffer P M) : b.size = total (b.peers.map b.pendingFor) := by
  have hlengths : b.peers.map b.pendingFor =
      (b.queues.entries.filter fun e => !e.2.isEmpty).map fun e => e.2.length := by
    rw [← map_peers, List.map_map]
    rfl
  rw [hlengths, size, SortedMap.values]
  induction b.queues.entries with
  | nil => rfl
  | cons e entries ih =>
    obtain ⟨peer, _ | ⟨p, queue⟩⟩ := e
    · simpa [total] using ih
    · simpa [total] using ih

def parked (b : RetryBuffer P M) : Multiset (P × TaggedPush M) :=
  b.peers.flatMap fun peer => (b.queue peer).map (Prod.mk peer)

lemma parked_eq_entries (b : RetryBuffer P M) :
    b.parked = (b.queues.entries.flatMap fun e => e.2.map (Prod.mk e.1) : List _) := by
  have hpairs : (b.peers.flatMap fun peer => (b.queue peer).map (Prod.mk peer)) =
      (b.queues.entries.filter fun e => !e.2.isEmpty).flatMap fun e => e.2.map (Prod.mk e.1) := by
    rw [← map_peers, List.flatMap_map]
  rw [parked, hpairs]
  congr 1
  induction b.queues.entries with
  | nil => rfl
  | cons e entries ih =>
    obtain ⟨peer, _ | ⟨p, queue⟩⟩ := e
    · simpa using ih
    · simpa using ih

lemma parked_setQueue_add : (b.setQueue peer queue).parked +
    under peer (queue.take (queue.length - b.capacity)) =
      under peer queue + (b.clear peer).parked := by
  have hparked : (b.setQueue peer queue).parked =
      under peer (queue.drop (queue.length - b.capacity)) + (b.clear peer).parked := by
    rw [parked_eq_entries, parked_eq_entries]
    have hperm := (SortedMap.entries_insert_perm b.queues peer
      (queue.drop (queue.length - b.capacity))).flatMap_right fun e => e.2.map (Prod.mk e.1)
    exact Multiset.coe_eq_coe.mpr hperm
  rw [hparked, add_right_comm, add_comm (under peer _), under_take_add_drop]

lemma parked_eq (b : RetryBuffer P M) (peer : P) :
    b.parked = under peer (b.queue peer) + (b.clear peer).parked := by
  cases hget : b.queues.get? peer with
  | none =>
    have hqueue : b.queue peer = [] := by simp [RetryBuffer.queue, SortedMap.getD, hget]
    have hclear : b.clear peer = b := by rw [clear, SortedMap.erase_of_get?_eq_none hget]
    rw [hqueue, hclear, under_nil, Multiset.zero_add]
  | some queue =>
    have hqueue : b.queue peer = queue := by simp [RetryBuffer.queue, SortedMap.getD, hget]
    rw [parked_eq_entries, parked_eq_entries, hqueue]
    have hperm := (SortedMap.entries_insert_perm b.queues peer queue).flatMap_right
      fun e => e.2.map (Prod.mk e.1)
    rw [SortedMap.insert_of_get? hget] at hperm
    exact Multiset.coe_eq_coe.mpr hperm

lemma parked_push_add (h : b.Fits) (peer : P) (payload : M) :
    (b.push peer payload).1.parked + under peer (b.push peer payload).2.toList =
      under peer (b.pushedQueue peer payload) + (b.clear peer).parked := by
  rw [(push_spec h peer payload).1, (push_spec h peer payload).2]
  exact parked_setQueue_add

lemma parked_requeue_add (h : b.Fits) (peer : P) (pushes : List (TaggedPush M)) :
    let queue := pushes ++ b.queue peer
    (b.requeue peer pushes).parked + under peer (queue.take (queue.length - b.capacity)) =
      under peer queue + (b.clear peer).parked := by
  intro queue
  by_cases hnone : pushes = []
  · subst hnone
    have hqueue : queue = b.queue peer := rfl
    rw [hqueue, h.excess, List.take_zero, under_nil, add_zero, ← parked_eq]
    rfl
  · rw [requeue_eq hnone]
    exact parked_setQueue_add

end RetryBuffer

end DeltaRing
