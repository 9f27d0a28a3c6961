import DeltaRing.Cluster.Network
import DeltaRing.Propagation

/-!
Pushes between the nodes of a cluster.

A node merges a push and pushes it on while the budget lasts, so one push may set off a cascade.
Every call in it leaves with less budget than the one that caused it or was parked before the
cascade began, which bounds how deep calls can be nested.
-/

namespace DeltaRing.Cluster

/-- Calls a peer, from an address, to merge a push. -/
abbrev PushCall := String → NodeInfo → Push → Action Cluster MergeResult

/-- A node as a sender, its calls made in the given way. -/
def station (call : PushCall) (seat : Seat) (n : Node) : Station Cluster where
  here := n.info
  propagation := n.propagation
  rerouting := n.rerouting
  maxHops := n.config.maxRerouteHops
  now := timer
  distributor := fun c => (c.nodes.getD seat n).distributor
  outbox := fun c => (c.nodes.getD seat n).outbox
  setOutbox := fun outbox c =>
    { c with nodes := c.nodes.modify seat fun n => { n with outbox } }
  connect := fun _ => return
  push := call n.info.address

/-- Lets a node act as a sender. -/
def sending {α : Type} (call : PushCall) (seat : Seat) (a : Station Cluster → Action Cluster α) :
    Action Cluster α := do
  match (← get).nodes.get? seat with
  | none => throw (.unreachable "" "the node is gone")
  | some n => a (station call seat n)

/-- Pushes on as far as it can be done; what fails is left to anti-entropy. -/
def tryPropagate (call : PushCall) (seat : Seat) (subject : Subject) (deltas : Payload)
    (ctx : OperationContext) : Action Cluster Unit := do
  let _ ← Action.attempt (sending call seat fun st => st.propagate subject deltas ctx)

/-- What a node does with a push: it merges the deltas and, if they were news, pushes them on. -/
def receive (call : PushCall) (seat : Seat) (p : Push) : Action Cluster MergeResult := do
  let result ← act seat (Node.merge p.subject p.deltas)
  if result.isUpdated && 0 < p.ctx.budget then
    tryPropagate call seat p.subject p.deltas p.ctx
  return result

/-- A call nested at most `depth` deep. -/
def pushWithin : Nat → PushCall
  | 0, _, _, _ => throw (.violation "pushes nested too deep")
  | depth + 1, caller, peer, p => do
    let seat ← connect caller peer.address p.ctx
    receive (pushWithin depth) seat p

/-- The budgets of all parked pushes, and one for each of them. -/
def parkedBudget (c : Cluster) : Nat :=
  total <| c.nodes.values.map fun n => total <| n.outbox.retry.queues.values.map fun queue =>
    total <| queue.map fun p => p.payload.ctx.budget + 1

/-- How deep the calls can be nested that a push with this budget sets off. -/
def depthBound (c : Cluster) (budget : Nat) : Nat := budget + 1 + c.parkedBudget

/-- Calls a peer to merge a push. -/
def push : PushCall := fun caller peer p => do
  pushWithin ((← get).depthBound p.ctx.budget) caller peer p

/-- What a node does with a push that comes from outside. -/
def handlePush (seat : Seat) (p : Push) : Action Cluster MergeResult := receive push seat p

/-- Pushes deltas of a node to its peers. -/
def announce (seat : Seat) (subject : Subject) (deltas : Payload) (ctx : OperationContext) :
    Action Cluster Unit :=
  tryPropagate push seat subject deltas ctx

/-- Sends everything that a node has parked for a peer. -/
def flush (seat : Seat) (peer : NodeInfo) : Action Cluster Nat :=
  sending push seat fun st => ExceptT.lift (st.flush peer)

/-! ### Recoveries -/

/-- The seats of the nodes that have events waiting for subscribers. -/
def seatsWithEvents (c : Cluster) : List Seat :=
  c.nodes.entries.filterMap fun (seat, n) =>
    if n.outbox.failures.subscribers.any fun q => !q.waiting.isEmpty then some seat else none

/-- Lets subscribers answer their events, at most `rounds` times over. -/
def answerEventsWithin : Nat → Action Cluster Unit
  | 0 => return
  | rounds + 1 => do
    match (← get).seatsWithEvents with
    | [] => return
    | seats =>
      seats.forM fun seat => sending push seat fun st => ExceptT.lift st.answerEvents
      answerEventsWithin rounds

/-- Lets subscribers answer their events until none waits. An event that an answer causes clears a
mark, and answers make none that they clear, so the marks bound the rounds. -/
def answerEvents : Action Cluster Unit := do
  let marks := total ((← get).nodes.values.map fun n => n.outbox.failures.marks.size)
  answerEventsWithin (marks + 2)

end DeltaRing.Cluster
