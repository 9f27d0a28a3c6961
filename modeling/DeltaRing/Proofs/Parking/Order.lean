import DeltaRing.Proofs.Parking.Conservation
import DeltaRing.Propagation

/-!
The order of the parked pushes.

A replay takes all that is parked for its peer, and puts back what it could not deliver, in front of
what was parked meanwhile. Several replays to one peer may be under way at once. A replay is
overtaken when one that began before it puts pushes back, for then older pushes than its own are in
the queue already. As long as every overtaken replay delivers all that it took, the queues stay
oldest first and only their oldest pushes are dropped. Where an overtaken replay puts pushes back,
neither is so; but in any order, no queue outgrows its room and no number is made up.
-/

namespace DeltaRing

namespace Station

variable {σ : Type} (st : Station σ)

lemma run_replay_cons (peer : NodeInfo) (p : TaggedPush Push) (pushes : List (TaggedPush Push))
    (s : σ) : (st.replay peer (p :: pushes)).run s =
      match (st.send peer p.payload).run.run s with
      | (.ok _, s') => (((st.replay peer pushes).run s').1 + 1, ((st.replay peer pushes).run s').2)
      | (.error _, s') =>
        (0, ((st.modifyRetry fun b => b.requeue peer.id (p :: pushes)).run s').2) := by
  simp only [replay, StateT.run_bind]
  rcases (st.send peer p.payload).run.run s with ⟨_ | _, s'⟩ <;> rfl

/-- A replay puts back the pushes behind those that it delivered, and does nothing after that. -/
lemma replay_puts_back (peer : NodeInfo) (pushes : List (TaggedPush Push)) (s : σ) :
    let r := (st.replay peer pushes).run s
    r.1 ≤ pushes.length ∧ (r.1 < pushes.length → ∃ w,
      r.2 = ((st.modifyRetry fun b => b.requeue peer.id (pushes.drop r.1)).run w).2) := by
  induction pushes generalizing s with
  | nil => exact ⟨Nat.le_refl 0, fun h => absurd h (Nat.lt_irrefl 0)⟩
  | cons p pushes ih =>
    rw [run_replay_cons]
    rcases (st.send peer p.payload).run.run s with ⟨_ | _, s'⟩
    · exact ⟨Nat.zero_le _, fun _ => ⟨s', rfl⟩⟩
    · obtain ⟨hle, hrest⟩ := ih s'
      exact ⟨Nat.succ_le_succ hle, fun h => hrest (Nat.lt_of_succ_lt_succ h)⟩

end Station

namespace Parking

open RetryBuffer

/-! ### Pushes in order -/

/-- Pushes oldest first, all of them among the first `n` that were parked. -/
structure InOrder {M : Type} (n : Nat) (pushes : List (TaggedPush M)) : Prop where
  increasing : pushes.Pairwise fun p q => p.seq < q.seq
  numbered : ∀ p ∈ pushes, p.seq ≤ n

namespace InOrder

variable {M : Type} {n : Nat} {pushes pushes' : List (TaggedPush M)}

lemma sublist (h : InOrder n pushes) (hs : pushes'.Sublist pushes) : InOrder n pushes' where
  increasing := h.increasing.sublist hs
  numbered p hp := h.numbered p (hs.subset hp)

lemma mono (h : InOrder n pushes) {n' : Nat} (hn : n ≤ n') : InOrder n' pushes where
  increasing := h.increasing
  numbered p hp := (h.numbered p hp).trans hn

lemma concat (h : InOrder n pushes) (payload : M) :
    InOrder (n + 1) (pushes ++ [⟨n + 1, payload⟩]) where
  increasing := by
    refine List.pairwise_append.mpr ⟨h.increasing, List.pairwise_singleton _ _, fun p hp q hq => ?_⟩
    rw [List.mem_singleton.mp hq]
    exact Nat.lt_succ_of_le (h.numbered p hp)
  numbered p hp := by
    rcases List.mem_append.mp hp with hp | hp
    · exact Nat.le_succ_of_le (h.numbered p hp)
    · rw [List.mem_singleton.mp hp]

lemma nodup_seqs (h : InOrder n pushes) : (pushes.map TaggedPush.seq).Nodup :=
  List.pairwise_map.mpr (h.increasing.imp Nat.ne_of_lt)

/-- What goes from the front is older than what is left. -/
lemma take_lt_drop (h : InOrder n pushes) (k : Nat) :
    ∀ p ∈ pushes.take k, ∀ q ∈ pushes.drop k, p.seq < q.seq := by
  have hsplit := h.increasing
  rw [← List.take_append_drop k pushes, List.pairwise_append] at hsplit
  exact hsplit.2.2

end InOrder

/-! ### Replays under way -/

structure Replay (P M : Type) where
  peer : P
  /-- What it took from the queue of its peer. -/
  pushes : List (TaggedPush M)
  /-- A replay that began before it has put pushes back. -/
  overtaken : Bool

/-- A retry buffer and the replays from it that are under way, the latest first. -/
structure Replays (P M : Type) [Key P] where
  buffer : RetryBuffer P M
  out : List (Replay P M)

inductive Event (P M : Type) where
  | push (peer : P) (payload : M)
  /-- A replay begins. -/
  | drain (peer : P)
  /-- The replay with `later` ones after it ends, with some of its pushes delivered. -/
  | requeue (later delivered : Nat)

variable {P M : Type} [Key P] {peer peer' : P} {rest : List (TaggedPush M)}
  {r : Replay P M}

/-- The replay once an earlier one has put back what was left for its peer. -/
def Replay.after (r : Replay P M) (peer : P) (rest : List (TaggedPush M)) : Replay P M :=
  if compare r.peer peer = .eq ∧ rest.isEmpty = false then { r with overtaken := true } else r

@[simp] lemma Replay.peer_after : (r.after peer rest).peer = r.peer := by
  rw [Replay.after]
  split <;> rfl

@[simp] lemma Replay.pushes_after : (r.after peer rest).pushes = r.pushes := by
  rw [Replay.after]
  split <;> rfl

def Replay.takenFor (r : Replay P M) (peer : P) : List (TaggedPush M) :=
  if compare r.peer peer = .eq ∧ r.overtaken = false then r.pushes else []

/-- What the replays have taken for a peer, but for the overtaken ones, oldest first. -/
def takenFor (peer : P) : List (Replay P M) → List (TaggedPush M)
  | [] => []
  | r :: out => takenFor peer out ++ r.takenFor peer

lemma takenFor_append (peer : P) (later earlier : List (Replay P M)) :
    takenFor peer (later ++ earlier) = takenFor peer earlier ++ takenFor peer later := by
  induction later with
  | nil => rw [List.nil_append, takenFor, List.append_nil]
  | cons r later ih => rw [List.cons_append, takenFor, ih, takenFor, List.append_assoc]

lemma Replay.takenFor_of_ne (h : peer ≠ r.peer) : r.takenFor peer = [] :=
  if_neg fun hr => h (Key.compare_eq_iff.mp hr.1).symm

lemma Replay.takenFor_of_not_overtaken (h : r.overtaken = false) : r.takenFor r.peer = r.pushes :=
  if_pos ⟨Key.compare_self _, h⟩

lemma takenFor_after_of_ne (h : peer' ≠ peer) (out : List (Replay P M)) :
    takenFor peer' (out.map (·.after peer rest)) = takenFor peer' out := by
  induction out with
  | nil => rfl
  | cons r out ih =>
    have hr : (r.after peer rest).takenFor peer' = r.takenFor peer' := by
      by_cases hpeer : r.peer = peer
      · have hother : peer' ≠ r.peer := hpeer ▸ h
        rw [Replay.takenFor_of_ne hother, Replay.takenFor_of_ne (by rwa [Replay.peer_after])]
      · rw [Replay.after, if_neg fun hafter => hpeer (Key.compare_eq_iff.mp hafter.1)]
    rw [List.map_cons, takenFor, takenFor, ih, hr]

lemma takenFor_after_self (h : rest ≠ []) (out : List (Replay P M)) :
    takenFor peer (out.map (·.after peer rest)) = [] := by
  induction out with
  | nil => rfl
  | cons r out ih =>
    have hr : (r.after peer rest).takenFor peer = [] := by
      by_cases hpeer : r.peer = peer
      · have hafter : r.after peer rest = { r with overtaken := true } :=
          if_pos ⟨Key.compare_eq_iff.mpr hpeer, by simpa using h⟩
        rw [hafter]
        exact if_neg fun htaken => Bool.noConfusion htaken.2
      · exact Replay.takenFor_of_ne (by rwa [Replay.peer_after, ne_comm])
    rw [List.map_cons, takenFor, ih, hr, List.append_nil]

lemma after_nil (peer : P) (out : List (Replay P M)) : out.map (·.after peer []) = out := by
  simp [Replay.after]

namespace Replays

def ofCapacity (capacity : Nat) : Replays P M := ⟨.ofCapacity capacity, []⟩

def step (s : Replays P M) : Event P M → Replays P M
  | .push peer payload => { s with buffer := (s.buffer.push peer payload).1 }
  | .drain peer => ⟨(s.buffer.drain peer).1, ⟨peer, (s.buffer.drain peer).2, false⟩ :: s.out⟩
  | .requeue later delivered =>
    match s.out[later]? with
    | none => s
    | some r =>
      let rest := r.pushes.drop delivered
      ⟨s.buffer.requeue r.peer rest,
        (s.out.take later).map (·.after r.peer rest) ++ s.out.drop (later + 1)⟩

def run (s : Replays P M) (events : List (Event P M)) : Replays P M := events.foldl step s

def dropped (s : Replays P M) : Event P M → List (P × TaggedPush M)
  | .push peer payload => (s.buffer.push peer payload).2.toList.map (Prod.mk peer)
  | .drain _ => []
  | .requeue later delivered =>
    match s.out[later]? with
    | none => []
    | some r =>
      let rest := r.pushes.drop delivered
      (missing (rest ++ s.buffer.queue r.peer)
        ((s.buffer.requeue r.peer rest).queue r.peer)).map (Prod.mk r.peer)

def OldestFirst (s : Replays P M) : Prop :=
  ∀ peer, (s.buffer.queue peer).Pairwise fun p q => p.seq < q.seq

/-- What the event drops is older than all that it leaves in the queue. -/
def DropsOldest (s : Replays P M) (e : Event P M) : Prop :=
  ∀ d ∈ s.dropped e, ∀ q ∈ (s.step e).buffer.queue d.1, d.2.seq < q.seq

/-- A replay that was overtaken puts nothing back. -/
def InTurn (s : Replays P M) : Event P M → Prop
  | .push _ _ => True
  | .drain _ => True
  | .requeue later delivered =>
    ∀ r ∈ s.out[later]?, r.overtaken = true → r.pushes.length ≤ delivered

instance (s : Replays P M) : DecidablePred s.InTurn
  | .push _ _ => .isTrue trivial
  | .drain _ => .isTrue trivial
  | .requeue later delivered => inferInstanceAs (Decidable
      (∀ r ∈ s.out[later]?, r.overtaken = true → r.pushes.length ≤ delivered))

def Orderly (s : Replays P M) : List (Event P M) → Prop
  | [] => True
  | e :: events => s.InTurn e ∧ (s.step e).Orderly events

instance decidableOrderly (s : Replays P M) : DecidablePred s.Orderly
  | [] => .isTrue trivial
  | e :: events =>
    have := decidableOrderly (s.step e) events
    inferInstanceAs (Decidable (s.InTurn e ∧ (s.step e).Orderly events))

/-- The pushes of a peer, first those of its replays and then the parked ones. -/
def line (s : Replays P M) (peer : P) : List (TaggedPush M) :=
  takenFor peer s.out ++ s.buffer.queue peer

structure Ordered (s : Replays P M) : Prop where
  fits : s.buffer.Fits
  line : ∀ peer, InOrder s.buffer.currentSeq (s.line peer)

variable {s : Replays P M} {e : Event P M} {events : List (Event P M)}
  {capacity i delivered : Nat}

lemma ordered_ofCapacity (capacity : Nat) : (ofCapacity capacity : Replays P M).Ordered where
  fits := fits_ofCapacity capacity
  line _ := ⟨.nil, fun _ hp => absurd hp List.not_mem_nil⟩

lemma Ordered.queue (h : s.Ordered) (peer : P) :
    InOrder s.buffer.currentSeq (s.buffer.queue peer) :=
  (h.line peer).sublist (List.sublist_append_right _ _)

lemma Ordered.push (h : s.Ordered) (peer : P) (payload : M) :
    (s.step (.push peer payload)).Ordered where
  fits := h.fits.push
  line peer' := by
    rw [Replays.line, step, currentSeq_push]
    by_cases hp : peer' = peer
    · subst hp
      rw [queue_push_self h.fits]
      refine ((h.line peer').concat payload).sublist ?_
      rw [Replays.line, List.append_assoc]
      exact (List.drop_sublist _ _).append_left _
    · rw [queue_push_of_ne h.fits hp]
      exact (h.line peer').mono (Nat.le_succ _)

lemma Ordered.drain (h : s.Ordered) (peer : P) : (s.step (.drain peer)).Ordered where
  fits := h.fits.clear
  line peer' := by
    have hsame : (s.step (.drain peer)).line peer' = s.line peer' := by
      rw [Replays.line, Replays.line, step, takenFor, List.append_assoc]
      congr 1
      by_cases hp : peer' = peer
      · subst hp
        rw [Replay.takenFor_of_not_overtaken rfl]
        exact (congrArg _ queue_clear_self).trans (List.append_nil _)
      · rw [Replay.takenFor_of_ne hp]
        exact queue_clear_of_ne hp
    rw [hsame]
    exact h.line peer'

lemma line_eq (hr : s.out[i]? = some r) (peer : P) :
    s.line peer = takenFor peer (s.out.drop (i + 1)) ++ r.takenFor peer ++
      takenFor peer (s.out.take i) ++ s.buffer.queue peer := by
  obtain ⟨hi, hget⟩ := List.getElem?_eq_some_iff.mp hr
  have hout : s.out = s.out.take i ++ r :: s.out.drop (i + 1) := by
    rw [← hget, ← List.drop_eq_getElem_cons hi, List.take_append_drop]
  calc s.line peer
      = takenFor peer (s.out.take i ++ r :: s.out.drop (i + 1)) ++ s.buffer.queue peer := by
        rw [← hout, Replays.line]
    _ = _ := by rw [takenFor_append, takenFor]

/-- What is put back in turn stays between the replays before it and the queue. -/
lemma putBack_sublist (hr : s.out[i]? = some r) (hturn : s.InTurn (.requeue i delivered)) :
    (takenFor r.peer (s.out.drop (i + 1)) ++
      (r.pushes.drop delivered ++ s.buffer.queue r.peer)).Sublist (s.line r.peer) := by
  have hrest : (r.pushes.drop delivered).Sublist (r.takenFor r.peer) := by
    cases hovertaken : r.overtaken with
    | false =>
      rw [Replay.takenFor_of_not_overtaken hovertaken]
      exact List.drop_sublist _ _
    | true =>
      rw [List.drop_eq_nil_of_le (hturn r hr hovertaken)]
      exact List.nil_sublist _
  rw [line_eq hr, ← List.append_assoc]
  refine List.Sublist.append ?_ (List.Sublist.refl _)
  exact (hrest.append_left _).trans (List.sublist_append_left _ _)

lemma step_requeue (hr : s.out[i]? = some r) : s.step (.requeue i delivered) =
    ⟨s.buffer.requeue r.peer (r.pushes.drop delivered),
      (s.out.take i).map (·.after r.peer (r.pushes.drop delivered)) ++ s.out.drop (i + 1)⟩ := by
  rw [step, hr]

lemma Ordered.requeue (h : s.Ordered) (hturn : s.InTurn (.requeue i delivered)) :
    (s.step (.requeue i delivered)).Ordered := by
  cases hr : s.out[i]? with
  | none => rwa [step, hr]
  | some r =>
    rw [step_requeue hr]
    refine ⟨h.fits.requeue, fun peer => ?_⟩
    rw [currentSeq_requeue]
    refine (h.line peer).sublist ?_
    rw [Replays.line, takenFor_append]
    by_cases hp : peer = r.peer
    · subst hp
      rw [queue_requeue_self h.fits]
      by_cases hnone : r.pushes.drop delivered = []
      · rw [hnone, after_nil, line_eq hr, List.nil_append]
        refine List.Sublist.append ?_ (List.drop_sublist _ _)
        exact (List.sublist_append_left _ _).append_right _
      · rw [takenFor_after_self hnone, List.append_nil]
        exact ((List.drop_sublist _ _).append_left _).trans (putBack_sublist hr hturn)
    · rw [takenFor_after_of_ne hp, queue_requeue_of_ne hp, line_eq hr, Replay.takenFor_of_ne hp,
        List.append_nil]

lemma Ordered.step (h : s.Ordered) (hturn : s.InTurn e) : (s.step e).Ordered := by
  cases e with
  | push peer payload => exact h.push peer payload
  | drain peer => exact h.drain peer
  | requeue later delivered => exact h.requeue hturn

lemma Ordered.run (h : s.Ordered) (hevents : s.Orderly events) : (s.run events).Ordered := by
  induction events generalizing s with
  | nil => exact h
  | cons e events ih => exact ih (h.step hevents.1) hevents.2

lemma Ordered.oldestFirst (h : s.Ordered) : s.OldestFirst := fun peer => (h.queue peer).increasing

/-- Where pushes are put back in turn, the queue that this gives is in order before it is cut. -/
lemma Ordered.putBack (h : s.Ordered) (hr : s.out[i]? = some r)
    (hturn : s.InTurn (.requeue i delivered)) :
    InOrder s.buffer.currentSeq (r.pushes.drop delivered ++ s.buffer.queue r.peer) :=
  (h.line r.peer).sublist ((List.sublist_append_right _ _).trans (putBack_sublist hr hturn))

/-- What is put back in turn drops the beginning of the queue. -/
lemma Ordered.dropped_requeue (h : s.Ordered) (hr : s.out[i]? = some r)
    (hturn : s.InTurn (.requeue i delivered)) :
    let queue := r.pushes.drop delivered ++ s.buffer.queue r.peer
    s.dropped (.requeue i delivered) =
      (queue.take (queue.length - s.buffer.capacity)).map (Prod.mk r.peer) := by
  intro queue
  have hdropped : s.dropped (.requeue i delivered) = (missing queue
      ((s.buffer.requeue r.peer (r.pushes.drop delivered)).queue r.peer)).map (Prod.mk r.peer) := by
    rw [dropped, hr]
  rw [hdropped, queue_requeue_self h.fits, missing_drop (h.putBack hr hturn).nodup_seqs]

/-- Where an event cuts a queue, it cuts one that is in order. -/
lemma Ordered.dropsOldest (h : s.Ordered) (hturn : s.InTurn e) : s.DropsOldest e := by
  intro d hd q hq
  cases e with
  | push peer payload =>
    obtain ⟨p, hp, rfl⟩ := List.mem_map.mp hd
    have hleft : q ∈ (s.buffer.push peer payload).1.queue peer := hq
    rw [(push_spec h.fits peer payload).2] at hp
    rw [queue_push_self h.fits] at hleft
    exact ((h.queue peer).concat payload).take_lt_drop _ p hp q hleft
  | drain peer => exact absurd hd List.not_mem_nil
  | requeue i delivered =>
    cases hr : s.out[i]? with
    | none => simp [dropped, hr] at hd
    | some r =>
      rw [h.dropped_requeue hr hturn] at hd
      obtain ⟨p, hp, rfl⟩ := List.mem_map.mp hd
      rw [step_requeue hr, queue_requeue_self h.fits] at hq
      exact (h.putBack hr hturn).take_lt_drop _ p hp q hq

lemma Ordered.evicted_step (h : s.Ordered) (hturn : s.InTurn e) :
    (s.step e).buffer.evicted = s.buffer.evicted + (s.dropped e).length := by
  cases e with
  | push peer payload =>
    rw [Replays.step, evicted_push h.fits, dropped, List.length_map, (push_spec h.fits peer payload).2,
      length_take_excess]
  | drain peer => rfl
  | requeue i delivered =>
    cases hr : s.out[i]? with
    | none => simp [Replays.step, dropped, hr]
    | some r =>
      rw [step_requeue hr, evicted_requeue h.fits, h.dropped_requeue hr hturn, List.length_map,
        length_take_excess]

/-- **Queues stay oldest first unless an overtaken replay puts pushes back.** Whatever is parked,
replayed and put back, for any number of peers and replays at once: if every replay that was
overtaken delivers all that it took, every queue is oldest first, and what an event drops, which the
buffer counts, is older than all that it leaves. -/
theorem oldest_first_unless_overtaken
    (hevents : (ofCapacity capacity : Replays P M).Orderly events) :
    let s : Replays P M := (ofCapacity capacity).run events
    s.OldestFirst ∧ ∀ e, s.InTurn e →
      s.DropsOldest e ∧ (s.step e).buffer.evicted = s.buffer.evicted + (s.dropped e).length := by
  have h := (ordered_ofCapacity capacity).run hevents
  exact ⟨h.oldestFirst, fun e hturn => ⟨h.dropsOldest hturn, h.evicted_step hturn⟩⟩

/-- Of two replays to one peer the earlier one puts its push back first. The later one, now
overtaken, delivers its own; a third push is parked, and there is room for two. -/
def deliveredLate : List (Event Nat Nat) :=
  [.push 0 10, .drain 0, .push 0 20, .drain 0, .requeue 1 0, .push 0 30, .requeue 0 1]

/-- The next push drops the first one. -/
theorem deliveredLate_drops_oldest :
    (ofCapacity 2).Orderly deliveredLate ∧
    ((ofCapacity 2).run deliveredLate).buffer.queue 0 = [⟨1, 10⟩, ⟨3, 30⟩] ∧
    ((ofCapacity 2).run deliveredLate).dropped (.push 0 40) = [(0, ⟨1, 10⟩)] ∧
    ((ofCapacity 2).run deliveredLate).OldestFirst ∧
    ((ofCapacity 2).run deliveredLate).DropsOldest (.push 0 40) := by
  have horderly : (ofCapacity 2).Orderly deliveredLate := by decide +kernel
  obtain ⟨hfirst, hdrops⟩ := oldest_first_unless_overtaken horderly
  exact ⟨horderly, by decide +kernel, by decide +kernel, hfirst, (hdrops (.push 0 40) trivial).1⟩

/-- The same replays, but the overtaken one fails as well. -/
def failedLate : List (Event Nat Nat) :=
  [.push 0 10, .drain 0, .push 0 20, .drain 0, .requeue 1 0, .requeue 0 0]

/-- The younger push stands in front of the older one, and it is the one that the next push drops:
the queues are not always oldest first, nor is what is dropped. -/
theorem failedLate_drops_younger :
    ((ofCapacity 2).run failedLate).buffer.queue 0 = [⟨2, 20⟩, ⟨1, 10⟩] ∧
    ((ofCapacity 2).run failedLate).dropped (.push 0 30) = [(0, ⟨2, 20⟩)] ∧
    (((ofCapacity 2).run failedLate).step (.push 0 30)).buffer.queue 0 = [⟨1, 10⟩, ⟨3, 30⟩] ∧
    ¬ (∀ events : List (Event Nat Nat), ((ofCapacity 2).run events).OldestFirst) ∧
    ¬ (∀ (events : List (Event Nat Nat)) (e : Event Nat Nat),
      ((ofCapacity 2).run events).DropsOldest e) := by
  have hqueue : ((ofCapacity 2).run failedLate).buffer.queue 0 = [⟨2, 20⟩, ⟨1, 10⟩] := by
    decide +kernel
  have hdropped : ((ofCapacity 2).run failedLate).dropped (.push 0 30) = [(0, ⟨2, 20⟩)] := by
    decide +kernel
  have hleft : (((ofCapacity 2).run failedLate).step (.push 0 30)).buffer.queue 0 =
      [⟨1, 10⟩, ⟨3, 30⟩] := by
    decide +kernel
  refine ⟨hqueue, hdropped, hleft, fun hfirst => ?_, fun hdrops => ?_⟩
  · have hsorted := hfirst failedLate 0
    rw [hqueue] at hsorted
    simp at hsorted
  · have hlt := hdrops failedLate (.push 0 30) (0, ⟨2, 20⟩) (by rw [hdropped]; simp) ⟨1, 10⟩
      (by rw [hleft]; simp)
    simp at hlt

/-! ### What holds in any order -/

structure Kept (s : Replays P M) : Prop where
  buffer : s.buffer.WellKept
  out : ∀ r ∈ s.out, ∀ p ∈ r.pushes, p.seq ≤ s.buffer.currentSeq

lemma kept_ofCapacity (capacity : Nat) : (ofCapacity capacity : Replays P M).Kept where
  buffer := wellKept_ofCapacity capacity
  out _ hr := absurd hr List.not_mem_nil

lemma Kept.push (h : s.Kept) (peer : P) (payload : M) : (s.step (.push peer payload)).Kept where
  buffer := h.buffer.push
  out r hr p hp := by
    rw [step, currentSeq_push]
    exact Nat.le_succ_of_le (h.out r hr p hp)

lemma Kept.drain (h : s.Kept) (peer : P) : (s.step (.drain peer)).Kept where
  buffer := h.buffer.clear
  out := List.forall_mem_cons.mpr ⟨h.buffer.numbered peer, h.out⟩

lemma Kept.requeue (h : s.Kept) (i delivered : Nat) : (s.step (.requeue i delivered)).Kept := by
  cases hr : s.out[i]? with
  | none => rwa [step, hr]
  | some r =>
    have hrest : ∀ p ∈ r.pushes.drop delivered, p.seq ≤ s.buffer.currentSeq := fun p hp =>
      h.out r (List.mem_of_getElem? hr) p (List.mem_of_mem_drop hp)
    rw [step_requeue hr]
    refine ⟨h.buffer.requeue hrest, fun r' hr' p hp => ?_⟩
    rw [currentSeq_requeue]
    rcases List.mem_append.mp hr' with hr' | hr'
    · obtain ⟨later, hlater, rfl⟩ := List.mem_map.mp hr'
      rw [Replay.pushes_after] at hp
      exact h.out later (List.mem_of_mem_take hlater) p hp
    · exact h.out r' (List.mem_of_mem_drop hr') p hp

lemma Kept.step (h : s.Kept) (e : Event P M) : (s.step e).Kept := by
  cases e with
  | push peer payload => exact h.push peer payload
  | drain peer => exact h.drain peer
  | requeue later delivered => exact h.requeue later delivered

lemma Kept.run (h : s.Kept) (events : List (Event P M)) : (s.run events).Kept := by
  induction events generalizing s with
  | nil => exact h
  | cons e events ih => exact ih (h.step e)

/-- **Every buffer is well kept.** Whatever is parked, replayed and put back, in any order, there is
room for a push, no queue holds more than there is room for, and each number has been handed out. -/
theorem wellKept_run (capacity : Nat) (events : List (Event P M)) :
    ((ofCapacity capacity : Replays P M).run events).buffer.WellKept :=
  ((kept_ofCapacity capacity).run events).buffer

end Replays

end Parking

end DeltaRing
