import DeltaRing.Collections.Total
import DeltaRing.Wire

/-!
Bounded queues of pushes that could not be delivered, one queue per peer.

Every parked push gets the next sequence number. A full queue drops its oldest pushes. Drained
pushes that could not be replayed go back to the front of their queue.
-/

namespace DeltaRing

structure TaggedPush (M : Type) where
  seq : Nat
  payload : M
deriving DecidableEq

instance {M : Type} [Wire M] : Wire (TaggedPush M) where
  toJson p := .object [("seq", toJson p.seq), ("payload", toJson p.payload)]
  ofJson? j := do
    let [seq, payload] ← j.record ["seq", "payload"] | none
    return ⟨← seq.required ofJson?, ← payload.required ofJson?⟩

structure RetryBuffer (P M : Type) [Key P] where
  /-- The last sequence number handed out. -/
  currentSeq : Nat
  /-- The parked pushes of every peer, oldest first. -/
  queues : SortedMap P (List (TaggedPush M))
  /-- The most pushes that a queue holds. -/
  capacity : Nat
  /-- How many pushes were dropped for lack of room. -/
  evicted : Nat
deriving DecidableEq

namespace RetryBuffer

variable {P M : Type} [Key P]

/-- An empty buffer; a queue has room for one push at least. -/
def ofCapacity (capacity : Nat) : RetryBuffer P M := ⟨0, .empty, max capacity 1, 0⟩

def queue (b : RetryBuffer P M) (peer : P) : List (TaggedPush M) := b.queues.getD peer []

/-- Parks a push; gives back the push dropped to make room for it. -/
def push (b : RetryBuffer P M) (peer : P) (payload : M) :
    RetryBuffer P M × Option (TaggedPush M) :=
  let seq := b.currentSeq + 1
  let queue := b.queue peer ++ [⟨seq, payload⟩]
  if b.capacity < queue.length then
    ({ b with currentSeq := seq, queues := b.queues.insert peer queue.tail, evicted := b.evicted + 1 },
      queue.head?)
  else ({ b with currentSeq := seq, queues := b.queues.insert peer queue }, none)

/-- Takes everything parked for a peer, oldest first. -/
def drain (b : RetryBuffer P M) (peer : P) : RetryBuffer P M × List (TaggedPush M) :=
  ({ b with queues := b.queues.erase peer }, b.queue peer)

/-- Puts drained pushes back before those parked meanwhile; the oldest beyond capacity go. -/
def requeue (b : RetryBuffer P M) (peer : P) (pushes : List (TaggedPush M)) : RetryBuffer P M :=
  if pushes.isEmpty then b
  else
    let queue := pushes ++ b.queue peer
    let excess := queue.length - b.capacity
    { b with queues := b.queues.insert peer (queue.drop excess), evicted := b.evicted + excess }

/-- Forgets everything parked for a peer. -/
def clear (b : RetryBuffer P M) (peer : P) : RetryBuffer P M :=
  { b with queues := b.queues.erase peer }

def pendingFor (b : RetryBuffer P M) (peer : P) : Nat := (b.queue peer).length

/-- The peers with parked pushes. -/
def peers (b : RetryBuffer P M) : List P :=
  b.queues.entries.filterMap fun (peer, queue) => if queue.isEmpty then none else some peer

/-- How many pushes are parked in all. -/
def size (b : RetryBuffer P M) : Nat := total (b.queues.values.map List.length)

end RetryBuffer

end DeltaRing
