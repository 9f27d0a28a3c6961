import DeltaRing.Encoded
import DeltaRing.Exchange.Frame

/-!
One side of an exchange between two replicas of a shard.

A side sends its timestamp and waits for the peer's. From then on it works in two directions at
once: it sends the deltas that the peer's timestamp does not reflect, in batches made from its
state at that moment, and it merges the batches that the peer sends. Each direction ends with
`done`. A side is a machine whose moves may be taken whenever they are possible, so a run of them
in any order is a run of the program under some schedule.
-/

namespace DeltaRing.Exchange

/-- What a side did in an exchange that it completed. -/
structure Report where
  sent : Nat
  received : Nat
  result : MergeResult
  /-- The encoded timestamp that the peer opened with. -/
  peerTimestamp : Payload
deriving DecidableEq

/-- The sending direction after the timestamps. -/
inductive Outgoing (T : Type) where
  /-- Batches have been made up to the cursor and `sent` of them sent; a frame may wait for room. -/
  | streaming (cursor : T) (sent : Nat) (waiting : Option Frame)
  | ended (outcome : Except ClusterError Nat)

/-- The receiving direction after the timestamps. -/
inductive Incoming where
  | merging (received : Nat) (result : MergeResult)
  | ended (outcome : Except ClusterError (Nat × MergeResult))

inductive Phase (T : Type) where
  /-- The own timestamp waits for room. -/
  | opening
  /-- The peer's timestamp has not come yet. -/
  | greeting
  | running (peerTimestamp : Payload) (outgoing : Outgoing T) (incoming : Incoming)
  /-- Over before the peer's timestamp was known. -/
  | refused (e : ClusterError)

structure Half (S T : Type) where
  state : S
  batchSize : Nat
  phase : Phase T

/-- Something a side may do. -/
inductive Move where
  /-- Make the next batch. -/
  | prepare
  /-- Send the frame that waits. -/
  | send
  /-- Take the next frame, or learn that there is none. -/
  | receive
deriving DecidableEq

namespace Half

variable {S D T : Type}

/-- A side at its start. -/
def start (state : S) (batchSize : Nat) : Half S T := ⟨state, batchSize, .opening⟩

/-- A side that has been cancelled before its first move. -/
def cancelled (state : S) (batchSize : Nat) : Half S T := ⟨state, batchSize, .refused .cancelled⟩

/-- The side may still send frames. -/
def isSending (h : Half S T) : Bool :=
  match h.phase with
  | .refused _ | .running _ (.ended _) _ => false
  | _ => true

/-- The side may still read frames. -/
def isListening (h : Half S T) : Bool :=
  match h.phase with
  | .refused _ | .running _ _ (.ended _) => false
  | _ => true

/-- What came of the exchange, once both directions have ended; a failure to send counts before a
failure to receive. -/
def outcome? (h : Half S T) : Option (Except ClusterError Report) :=
  match h.phase with
  | .refused e => some (.error e)
  | .running peerTimestamp (.ended out) (.ended inc) => some do
    let sent ← out
    let (received, result) ← inc
    return ⟨sent, received, result, peerTimestamp⟩
  | _ => none

def refuse (h : Half S T) (complaint : String) : Half S T :=
  { h with phase := .refused (.violation complaint) }

variable [CausalTimestamp T D] [DeltaCrdt S D T] [Wire D] [Wire T]

/-! ### Sending -/

/-- The side with its next batch made, if it has to make one. -/
def prepare? (h : Half S T) : Option (Half S T) :=
  match h.phase with
  | .running peer (.streaming cursor sent none) inc =>
    let (batch, cursor) := nextBatch h.state cursor h.batchSize
    let frame := if batch.isEmpty then .done else .deltas (Wire.encode batch)
    some { h with phase := .running peer (.streaming cursor sent (some frame)) inc }
  | _ => none

/-- The frame that waits for room. -/
def offered? (h : Half S T) : Option Frame :=
  match h.phase with
  | .opening => some (.timestamp (Encoded.timestampOf h.state))
  | .running _ (.streaming _ _ waiting) _ => waiting
  | _ => none

/-- The side after the frame that waited has gone. -/
def afterSending (h : Half S T) : Half S T :=
  match h.phase with
  | .opening => { h with phase := .greeting }
  | .running peer (.streaming _ sent (some .done)) inc =>
    { h with phase := .running peer (.ended (.ok sent)) inc }
  | .running peer (.streaming cursor sent (some _)) inc =>
    { h with phase := .running peer (.streaming cursor (sent + 1) none) inc }
  | _ => h

/-- The side after the frame that waited has found no reader. -/
def afterRefusal (h : Half S T) : Half S T :=
  let failed (complaint : String) : Outgoing T := .ended (.error (.violation complaint))
  match h.phase with
  | .opening => h.refuse "peer closed before our timestamp"
  | .running peer (.streaming _ _ (some .done)) inc =>
    { h with phase := .running peer (failed "peer closed before done") inc }
  | .running peer (.streaming _ _ (some _)) inc =>
    { h with phase := .running peer (failed "peer closed mid-stream") inc }
  | _ => h

/-! ### Receiving -/

/-- The side waits for a frame. -/
def isWaiting (h : Half S T) : Bool :=
  match h.phase with
  | .greeting | .running _ _ (.merging ..) => true
  | _ => false

/-- The side after a frame has come. -/
def hear (h : Half S T) (frame : Frame) : Half S T :=
  match h.phase, frame with
  | .greeting, .timestamp ts =>
    match (Wire.decode ts : Except ClusterError T) with
    | .ok since =>
      { h with phase := .running ts (.streaming since 0 none) (.merging 0 .unchanged) }
    | .error e => { h with phase := .refused e }
  | .greeting, frame => h.refuse ("expected timestamp, got " ++ frame.name)
  | .running peer out (.merging received result), .deltas batch =>
    match Encoded.merge h.state batch with
    | .ok (state, merged) =>
      { h with state, phase := .running peer out (.merging (received + 1) (result.or merged)) }
    | .error e => { h with phase := .running peer out (.ended (.error e)) }
  | .running peer out (.merging received result), .done =>
    { h with phase := .running peer out (.ended (.ok (received, result))) }
  | .running peer out (.merging ..), .timestamp _ =>
    { h with phase :=
        .running peer out (.ended (.error (.violation "second timestamp in one exchange"))) }
  | _, _ => h

/-- The side after it has learnt that no frame will come. -/
def hearNothing (h : Half S T) : Half S T :=
  match h.phase with
  | .greeting => h.refuse "peer closed before its timestamp"
  | .running peer out (.merging ..) =>
    { h with phase :=
        .running peer out (.ended (.error (.violation "peer closed before done"))) }
  | _ => h

/-! ### Moves -/

/-- What a side sees of its channel. -/
structure Channel where
  /-- The frames that have come. -/
  inbox : List Frame
  /-- The frames that have gone and are not read yet. -/
  outbox : List Frame
  /-- How many frames the outbox holds. -/
  capacity : Nat
  /-- The peer may still send. -/
  peerSending : Bool
  /-- The peer may still read. -/
  peerListening : Bool

/-- The side and its channel after a move, if the move is possible. -/
def move? (h : Half S T) (ch : Channel) : Move → Option (Half S T × Channel)
  | .prepare => h.prepare?.map (·, ch)
  | .send => do
    let frame ← h.offered?
    if !ch.peerListening then return (h.afterRefusal, ch)
    else if ch.outbox.length < ch.capacity then
      return (h.afterSending, { ch with outbox := ch.outbox ++ [frame] })
    else none
  | .receive =>
    if !h.isWaiting then none
    else
      match ch.inbox with
      | frame :: rest => some (h.hear frame, { ch with inbox := rest })
      | [] => if ch.peerSending then none else some (h.hearNothing, ch)

/-- The first possible move: what can be sent is sent before anything is read. -/
def step? (h : Half S T) (ch : Channel) : Option (Half S T × Channel) :=
  [Move.prepare, .send, .receive].findSome? (h.move? ch)

/-! ### Against a peer that has sent all it will -/

/-- At most `fuel` moves against such a peer, and what the side has sent. -/
def runWithin : Nat → Half S T → Channel → Half S T × List Frame
  | 0, h, ch => (h, ch.outbox)
  | fuel + 1, h, ch =>
    match h.step? ch with
    | none => (h, ch.outbox)
    | some (h, ch) => runWithin fuel h ch

/-- More moves than the side can take: two for every frame that it sends and one for every frame
that it reads. -/
def moveBound (h : Half S T) (frames : List Frame) : Nat :=
  2 * ((deltasSince h.state none).length + 2) + frames.length + 2

/-- Runs a side against a peer that has sent all its frames and either reads everything or
nothing; gives the side at its end and the frames that it sent. -/
def runAgainst (h : Half S T) (frames : List Frame) (peerListening : Bool) :
    Half S T × List Frame :=
  h.runWithin (h.moveBound frames)
    ⟨frames, [], (deltasSince h.state none).length + 2, false, peerListening⟩

end Half

end DeltaRing.Exchange
