import DeltaRing.Station

/-!
Pushing deltas to the other write replicas.

The budget of the operation's context bounds how far a push travels: a push leaves with one hop
less, and without budget none leaves. A push to a marked peer is parked without a call, a push
that finds its peer unreachable is parked after it, and what is parked for a peer is replayed,
oldest first, before the next push to that peer. Whatever is lost beyond that is left to
anti-entropy.
-/

namespace DeltaRing.Station

variable {σ : Type} (st : Station σ)

def send (peer : NodeInfo) (p : Push) : Action σ MergeResult := do
  st.connect peer
  st.push peer p

/-- Parks a push for a peer; the buffer may drop an older one for it. -/
def park (peer : NodeInfo) (p : Push) : StateM σ Unit :=
  st.modifyRetry fun b => (b.push peer.id p).1

/-- Sends parked pushes in turn. The first that fails is put back with those behind it. -/
def replay (peer : NodeInfo) : List (TaggedPush Push) → StateM σ Nat
  | [] => return 0
  | p :: rest => do
    match ← (st.send peer p.payload).run with
    | .ok _ => return (← replay peer rest) + 1
    | .error _ =>
      st.modifyRetry fun b => b.requeue peer.id (p :: rest)
      return 0

/-- Sends everything parked for a peer; gives the number of pushes delivered. -/
def flush (peer : NodeInfo) : StateM σ Nat := do
  let (retry, parked) := (st.outbox (← get)).retry.drain peer.id
  st.modifyRetry fun _ => retry
  st.replay peer parked

/-- Sends a push to a peer behind everything parked for it. -/
def deliver (peer : NodeInfo) (p : Push) : Action σ MergeResult := do
  let _ ← st.flush peer
  p.ctx.ensureActive
  match ← Action.attempt (st.send peer p) with
  | .ok result =>
    st.reportSuccess peer
    return result
  | .error e =>
    if e.isUnreachable then
      st.reportUnreachable peer
      st.park peer p.detached
    throw e

/-- Delivers a push to peers in turn, each attempted whatever came of the others; gives the number
of deliveries and the first error. -/
def deliverAll (p : Push) : List NodeInfo → StateM σ (Nat × Option ClusterError)
  | [] => return (0, none)
  | peer :: rest => do
    let result ← (st.deliver peer p).run
    let (delivered, error) ← deliverAll p rest
    match result with
    | .ok _ => return (delivered + 1, error)
    | .error e => return (delivered, some e)

/-- Pushes deltas to the peers that the strategy picks among those that are not marked. The local
node is no peer, and the node that the deltas came from gets nothing. -/
def pushAll (subject : Subject) (peers : List NodeInfo) (deltas : Payload)
    (ctx : OperationContext) : Action σ Nat := do
  let p : Push := ⟨subject, deltas, ctx.forwarded st.here.id⟩
  let s ← get
  let notOrigin (n : NodeInfo) : Bool := ctx.origin != some n.id
  let (down, candidates) := (peers.filter fun n => n.id != st.here.id && notOrigin n).partition
    fun n => st.isUnreachable s n.id
  down.forM fun peer => st.park peer p.detached
  let targets := (st.propagation st.here candidates).filter notOrigin
  let (delivered, error) ← st.deliverAll p targets
  match error with
  | none => return delivered
  | some e => throw e

/-- Who gets pushes: the write replicas of a replica, or all members. -/
def peersFor (s : σ) : Subject → List NodeInfo
  | .replica r => (st.distributor s).writeReplicas r
  | .metadata _ => (st.distributor s).nodes

/-- Pushes deltas if the context is active and has budget, and counts the peers that accepted. -/
def propagate (subject : Subject) (deltas : Payload) (ctx : OperationContext) : Action σ Nat := do
  ctx.ensureActive
  if ctx.budget = 0 then return 0
  st.pushAll subject (st.peersFor (← get) subject) deltas ctx

/-! ### Replaying on recovery -/

/-- Flushes the peers of recoveries in turn. -/
def flushRecovered : List NodeEvent → StateM σ Unit
  | [] => return
  | .recovered peer :: rest => do
    let _ ← st.flush peer
    flushRecovered rest
  | .unreachable _ :: rest => flushRecovered rest

/-- Hands the waiting events to the subscribers, each of which flushes the recovered peers. -/
def answerEvents : StateM σ Unit := do
  let (failures, queues) := (st.outbox (← get)).failures.takeEvents
  st.modifyFailures fun _ _ => failures
  st.flushRecovered (queues.flatMap EventQueue.waiting)

end DeltaRing.Station
