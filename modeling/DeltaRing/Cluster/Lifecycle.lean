import DeltaRing.Cluster.Round
import DeltaRing.Snapshot.Store

/-!
Nodes that come and go, their checkpoint files, and what they do at intervals.

A node that starts takes up the checkpoint in its file. Running in the background it syncs and saves
at once and then at its intervals, until a fault ends the one or the other. When it is shut down it
saves once more.
-/

namespace DeltaRing.Cluster

/-- How a node is to be run. -/
structure Launch where
  config : NodeConfig
  /-- The id of a node whose configuration names none. -/
  freshId : NodeId
  types : List CrdtType
  propagation : Strategy
  rerouting : Strategy
  antiEntropy : Strategy
  /-- The node serves at its address. -/
  online : Bool

/-- The node that is started. -/
def Launch.node (l : Launch) : Node :=
  .create ⟨l.config.nodeId.getD l.freshId, l.config.address⟩ l.config l.types l.propagation
    l.rerouting l.antiEntropy

def diskOf (c : Cluster) (id : NodeId) : Snapshot.Files := c.disks.getD id .empty

/-- The checkpoint in a file on a node's disk. -/
def savedCheckpoint (c : Cluster) (id : NodeId) (path : String) :
    Except ClusterError (Option Checkpoint) :=
  Snapshot.load (c.diskOf id) (.ofText path)

/-- Starts a node; a checkpoint that cannot be read is ignored. -/
def start (l : Launch) : Action Cluster Seat := do
  let c ← get
  let info := l.node.info
  let n :=
    match l.config.snapshotPath.map (c.savedCheckpoint info.id) with
    | some (.ok (some checkpoint)) => l.node.restore checkpoint
    | _ => l.node
  set { c with
    nodes := c.nodes.insert c.started n
    started := c.started + 1
    services := if l.online then c.services.insert info.address c.started else c.services }
  return c.started

/-- Writes a node's checkpoint; says whether the node keeps any. -/
def saveCheckpoint (seat : Seat) : Action Cluster Bool := do
  let n ← act seat get
  match n.config.snapshotPath with
  | none => return false
  | some path =>
    let time ← readClock (← get).clock
    let checkpoint ← act seat (ExceptT.lift (Node.checkpoint time))
    let c ← get
    let (disk, saved) := Snapshot.save (c.diskOf n.info.id) (.ofText path) checkpoint
    set { c with disks := c.disks.insert n.info.id disk }
    saved
    return true

/-- Puts a text into a file on a node's disk. -/
def plantFile (c : Cluster) (id : NodeId) (path text : String) : Cluster :=
  match (c.diskOf id).write (.ofText path) text.toUTF8 with
  | .ok disk => { c with disks := c.disks.insert id disk }
  | .error _ => c

/-! ### Background tasks -/

/-- Starts a node's background tasks, the first time of which is now. The tasks of a node that has
been shut down end at once, but a checkpoint is saved. -/
def startBackground (seat : Seat) : Action Cluster Unit := do
  let n ← act seat get
  let saves := n.config.snapshotPath.isSome
  if n.stopped then
    if saves then let _ ← Action.attempt (saveCheckpoint seat)
  else
    act seat (modify fun n =>
      { n with outbox := { n.outbox with failures := n.outbox.failures.subscribe } })
    modify fun c => { c with tickers := c.tickers
      ++ [⟨seat, .syncRound, n.config.antiEntropyInterval, c.timer⟩]
      ++ if saves then [⟨seat, .saveSnapshot, n.config.snapshotInterval, c.timer⟩] else [] }

/-- Does what a ticker is for and says whether there is a next time: what fails is left to it, but
a fault ends the task. -/
def runTask (t : Ticker) : Action Cluster Bool := do
  let result ← Action.attempt do
    match t.task with
    | .syncRound => let _ ← syncRound t.seat
    | .saveSnapshot => let _ ← saveCheckpoint t.seat
  answerEvents
  return match result with
    | .ok () => true
    | .error e => !e.isFault

/-- The ticker that is due first, if that is not later than a time. -/
def nextDue (c : Cluster) (time : Nat) : Option Nat :=
  (c.tickers.zipIdx.filter fun (t, _) => t.due ≤ time).foldl
    (fun best (t, i) =>
      match best.bind fun b => c.tickers[b]? with
      | some earlier => if t.due < earlier.due then some i else best
      | none => some i)
    none

/-- Serves tickers in the order in which they are due, as far as that is not later than a time. The
timer stands at the time of each, if it is not past it. -/
def serveWithin : Nat → Nat → Action Cluster Unit
  | 0, _ => return
  | times + 1, time => do
    let c ← get
    match (c.nextDue time).bind fun i => c.tickers[i]?.map fun t => (i, t) with
    | none => return
    | some (i, t) =>
      let now := max c.timer t.due
      set { c with timer := now, tickers := c.tickers.set i (t.next now) }
      let goesOn ← runTask t
      if !goesOn then modify fun c => { c with tickers := c.tickers.eraseIdx i }
      serveWithin times time

/-- How often tickers can be due up to a time. -/
def dueBound (c : Cluster) (time : Nat) : Nat :=
  total (c.tickers.map fun t => (time - t.due) + 1)

def serveUntil (time : Nat) : Action Cluster Unit := do
  serveWithin ((← get).dueBound time) time

/-- Lets time pass; every ticker is served when it is due. -/
def sleep (ms : Nat) : Action Cluster Unit := do
  let time := (← get).timer + ms
  serveUntil time
  modify fun c => { c with timer := max c.timer time }

/-- Moves the timer at one go; every ticker that has become due is served then. -/
def advance (ms : Nat) : Action Cluster Unit := do
  modify fun c => { c with timer := c.timer + ms }
  serveUntil (← get).timer

/-- Ends everything that a step has set off. -/
def settle : Action Cluster Unit := do
  answerEvents
  serveUntil (← get).timer

/-! ### Shutting down -/

/-- Shuts a node down, which goes on serving: its background tasks end, and one that saves
checkpoints saves a last one. -/
def shutdown (seat : Seat) : Action Cluster Unit := do
  act seat (modify fun n =>
    { n with
      stopped := true
      outbox := { n.outbox with failures := { n.outbox.failures with subscribers := [] } } })
  let c ← get
  let (ended, others) := c.tickers.partition fun t => t.seat = seat
  set { c with tickers := others }
  if ended.any fun t => t.task = .saveSnapshot then
    let _ ← Action.attempt (saveCheckpoint seat)

/-- Shuts a node down and takes it away; nobody serves at its address then. -/
def stop (seat : Seat) : Action Cluster Unit := do
  shutdown seat
  modify fun c => { c with
    nodes := c.nodes.erase seat
    services := c.services.filter fun _ s => s ≠ seat }

/-- Rounds of every node in the order of their starts, all of them `rounds` times over. -/
def syncAll (rounds : Nat) : Action Cluster (List (NodeId × Except ClusterError RoundSummary)) := do
  let seats := (← get).nodes.keys
  let summaries ← (List.replicate rounds seats).flatten.mapM fun seat => do
    let n ← act seat get
    match ← Action.attempt (syncRound seat) with
    | .error e => if e.isFault then throw e else return (n.info.id, .error e)
    | summary => return (n.info.id, summary)
  return summaries

end DeltaRing.Cluster
