import DeltaRing.Delta
import DeltaRing.Simulation.Network

/-!
Anti-entropy between replicas over a simulated network.

The initiator sends a digest, its timestamp. The responder streams back, in bounded batches, the
deltas that the timestamp does not reflect, and answers with a digest of its own, so that the
exchange runs in both directions. Lost deltas are not sent again by the network: the next digest
shows the gap. Digests that ask for an answer bring forth digests that do not, and those bring
forth deltas only, so draining the network comes to an end.
-/

namespace DeltaRing.Simulation

/-- A message between two replicas, named by their places. -/
inductive Message (D T : Type) where
  /-- A timestamp; `reply` asks the receiver to answer with its own. -/
  | digest (sender receiver : Nat) (timestamp : T) (reply : Bool)
  | deltas (sender receiver : Nat) (batch : List D)

/-- How much a cluster has sent. -/
structure Stats where
  digests : Nat
  batches : Nat
  deltas : Nat
deriving DecidableEq

structure Cluster (S D T : Type) where
  replicas : List S
  network : Network (Message D T)
  batchSize : Nat
  stats : Stats

namespace Message

variable {D T : Type}

def asksReply : Message D T → Bool
  | digest _ _ _ reply => reply
  | deltas .. => false

def isAnswer : Message D T → Bool
  | digest _ _ _ reply => !reply
  | deltas .. => false

def isDeltas : Message D T → Bool
  | digest .. => false
  | deltas .. => true

end Message

namespace Cluster

variable {S D T : Type} [CausalTimestamp T D] [DeltaCrdt S D T]

/-- `n` fresh replicas; a batch has room for one delta at least. -/
def ofSize (n : Nat) (batchSize : Nat) (fate : Nat → Fate) : Cluster S D T :=
  ⟨List.replicate n initial, .quiet fate, max batchSize 1, ⟨0, 0, 0⟩⟩

/-- The actor name of the replica at a place. -/
def replicaName (i : Nat) : String := s!"replica_{i}"

def send (c : Cluster S D T) (m : Message D T) : Cluster S D T :=
  { c with network := c.network.send m }

/-- Applies an operation at a replica that exists, under that replica's name. -/
def operate? {O R K : Type} [Operable S D O R K] (c : Cluster S D T) (i : Nat) (op : O) :
    Option (Cluster S D T × R × List D) := do
  let s ← c.replicas[i]?
  let (s, output, deltas) := Operable.apply s (replicaName i) op
  some ({ c with replicas := c.replicas.set i s }, output, deltas)

/-- Sends deltas straight to a replica. Nothing is sent if there are none; nothing comes out if
one of the replicas does not exist. -/
def push? (c : Cluster S D T) (sender receiver : Nat) (batch : List D) : Option (Cluster S D T) :=
  if batch.isEmpty then some c
  else if sender < c.replicas.length ∧ receiver < c.replicas.length then
    some { c.send (.deltas sender receiver batch) with
      stats := { c.stats with batches := c.stats.batches + 1 } }
  else none

/-- Starts a two-way exchange between two replicas that exist. -/
def initiate? (c : Cluster S D T) (sender receiver : Nat) : Option (Cluster S D T) := do
  let s ← c.replicas[sender]?
  if receiver < c.replicas.length then
    some { c.send (.digest sender receiver (timestamp s) true) with
      stats := { c.stats with digests := c.stats.digests + 1 } }
  else none

/-- What a replica answers to a digest: batches of deltas, and its own digest if asked. -/
def answers (c : Cluster S D T) (s : S) (sender receiver : Nat) (ts : T) (reply : Bool) :
    List (Message D T) :=
  (batches s ts c.batchSize).map (.deltas receiver sender)
    ++ if reply then [.digest receiver sender (timestamp s) false] else []

/-- Receives one message that has left the network. -/
def deliver (c : Cluster S D T) : Message D T → Cluster S D T
  | .digest sender receiver ts reply =>
    match c.replicas[receiver]? with
    | none => c
    | some s =>
      let batches := batches s ts c.batchSize
      { c with
        network := c.network.sendAll (c.answers s sender receiver ts reply)
        stats :=
          { digests := c.stats.digests + if reply then 1 else 0
            batches := c.stats.batches + batches.length
            deltas := c.stats.deltas + total (batches.map List.length) } }
  | .deltas _ receiver batch =>
    { c with replicas := c.replicas.modify receiver fun s => (mergeAll s batch).1 }

/-- Processes the next message; nothing comes out if none is in flight. -/
def processOne? (c : Cluster S D T) : Option (Cluster S D T) :=
  match c.network.receive? with
  | none => none
  | some (m, network) => some ({ c with network }.deliver m)

/-! ### Draining -/

/-- The messages in flight by what they can bring forth. -/
def pending (c : Cluster S D T) : Nat × Nat × Nat :=
  (c.network.inFlight.countP Message.asksReply, c.network.inFlight.countP Message.isAnswer,
    c.network.inFlight.countP Message.isDeltas)

theorem answers_quiet {c : Cluster S D T} {s : S} {sender receiver : Nat} {ts : T} {reply : Bool}
    {m : Message D T} (h : m ∈ c.answers s sender receiver ts reply) :
    m.asksReply = false ∧ (reply = false → m.isAnswer = false) := by
  simp only [answers, List.mem_append, List.mem_map] at h
  rcases h with ⟨_, _, rfl⟩ | h
  · exact ⟨rfl, fun _ => rfl⟩
  · cases reply <;> simp at h
    subst h
    exact ⟨rfl, by simp⟩

theorem inFlight_deliver_digest {c : Cluster S D T} {sender receiver : Nat} {ts : T}
    {reply : Bool} {p : Message D T → Bool}
    (h : ∀ s, ∀ m ∈ c.answers s sender receiver ts reply, p m = false) :
    (c.deliver (.digest sender receiver ts reply)).network.inFlight.countP p
      = c.network.inFlight.countP p := by
  simp only [deliver]
  split
  · rfl
  · exact Network.countP_sendAll (h _)

theorem pending_processOne? {c c' : Cluster S D T} (h : c.processOne? = some c') :
    Prod.Lex (· < ·) (Prod.Lex (· < ·) (· < ·)) c'.pending c.pending := by
  simp only [processOne?, Network.receive?] at h
  split at h
  · cases h
  · rename_i m network hm
    split at hm
    · cases hm
    · rename_i m' rest hq
      cases hm
      cases h
      cases m with
      | digest sender receiver ts reply =>
        cases reply with
        | true =>
          refine Prod.Lex.left _ _ ?_
          rw [inFlight_deliver_digest fun _ _ hm => (answers_quiet hm).1]
          simp only [hq, List.countP_cons, Message.asksReply]
          simp
        | false =>
          simp only [pending]
          rw [inFlight_deliver_digest fun _ _ hm => (answers_quiet hm).1,
            inFlight_deliver_digest fun _ _ hm => (answers_quiet hm).2 rfl]
          simp only [hq, List.countP_cons, Message.asksReply, Message.isAnswer]
          exact Prod.Lex.right _ (Prod.Lex.left _ _ (by simp))
      | deltas sender receiver batch =>
        simp only [pending, deliver, hq, List.countP_cons, Message.asksReply, Message.isAnswer,
          Message.isDeltas]
        exact Prod.Lex.right _ (Prod.Lex.right _ (by simp))

/-- Processes messages until none is in flight. -/
def drain (c : Cluster S D T) : Cluster S D T :=
  match _h : c.processOne? with
  | none => c
  | some c' => drain c'
termination_by c.pending
decreasing_by exact pending_processOne? _h

/-! ### Rounds -/

/-- Starts the exchanges listed, skipping those between replicas that do not exist. -/
def initiateAll (c : Cluster S D T) (pairs : List (Nat × Nat)) : Cluster S D T :=
  pairs.foldl (fun c (sender, receiver) => (c.initiate? sender receiver).getD c) c

/-- Every replica with its successor on the ring. -/
def ringPairs (n : Nat) : List (Nat × Nat) := (List.range n).map fun i => (i, (i + 1) % n)

/-- Every replica with every other one. -/
def allPairs (n : Nat) : List (Nat × Nat) :=
  (List.range n).flatMap fun i =>
    ((List.range n).filter fun j => i ≠ j).map fun j => (i, j)

/-- A round of the ring; alone, a replica has nobody to sync with. -/
def ringRound (c : Cluster S D T) : Cluster S D T :=
  if c.replicas.length < 2 then c else (c.initiateAll (ringPairs c.replicas.length)).drain

def fullRound (c : Cluster S D T) : Cluster S D T :=
  (c.initiateAll (allPairs c.replicas.length)).drain

/-- All replicas have the same timestamp. -/
def isConverged [DecidableEq T] (c : Cluster S D T) : Bool :=
  match c.replicas with
  | [] => true
  | first :: rest => rest.all fun s => timestamp s = timestamp first

/-- Ring rounds until the replicas have converged, but not more than `limit`. -/
def settle [DecidableEq T] (c : Cluster S D T) : Nat → Cluster S D T
  | 0 => c
  | limit + 1 => if c.isConverged then c else c.ringRound.settle limit

def resetStats (c : Cluster S D T) : Cluster S D T := { c with stats := ⟨0, 0, 0⟩ }

end Cluster

end DeltaRing.Simulation
