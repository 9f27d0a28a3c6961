import DeltaRing.Cluster.Push
import DeltaRing.Exchange.Duplex

/-!
Rounds of anti-entropy.

In a round a node exchanges its metadata with one member, reports its sizes, and exchanges every
replica that it holds with one of the replica's other readers. A failed exchange is counted and
its peer marked if it could not be reached; only a cancellation or a fault ends the round.
-/

namespace DeltaRing

/-- What a round did. -/
structure RoundSummary where
  exchanges : Nat
  failed : Nat
  sent : Nat
  received : Nat
  /-- The replicas whose local states changed. -/
  updated : List ReplicaId
  /-- The replicas that caught up with their checkpoints. -/
  resumed : List ReplicaId
deriving DecidableEq

namespace RoundSummary

def empty : RoundSummary := ⟨0, 0, 0, 0, [], []⟩

def record (s : RoundSummary) (r : Exchange.Report) : RoundSummary :=
  { s with
    exchanges := s.exchanges + 1
    sent := s.sent + r.sent
    received := s.received + r.received }

end RoundSummary

namespace Cluster

open Exchange (Half Duplex Report)

/-- A node's side of an exchange; that of a node that has been shut down is cancelled. -/
def sideOf {S T : Type} (n : Node) (state : S) : Half S T :=
  if n.stopped then .cancelled state n.config.exchangeBatchSize
  else .start state n.config.exchangeBatchSize

/-- Exchanges a replica between two nodes that host its instance. -/
def exchangeReplica (seat peer : Seat) (r : ReplicaId) : Action Cluster Report := do
  let theirs ← act peer (Node.hostedInstance r.instanceId)
  let theirState ← theirs.shard r.shard
  let theirNode ← act peer get
  Exchange.checkCapacity theirNode.config.exchangeChannelCapacity
  let ours ← act seat (Node.hostedInstance r.instanceId)
  let ourState ← ours.shard r.shard
  let x := (Duplex.connect (sideOf (← act seat get) ourState) (sideOf theirNode theirState)
    theirNode.config.exchangeChannelCapacity).run
  act peer (modify fun n => n.setHosted (theirs.setShard r.shard x.right.state))
  act seat (modify fun n => n.setHosted (ours.setShard r.shard x.left.state))
  x.left.outcome

/-- Exchanges a metadata table between two nodes; the side that was called refreshes its topology
if it learnt anything. -/
def exchangeMetadata (seat peer : Seat) (k : MetadataKind) : Action Cluster Report := do
  let ourNode ← act seat get
  let theirNode ← act peer get
  Exchange.checkCapacity theirNode.config.exchangeChannelCapacity
  let x := (Duplex.connect (sideOf ourNode (ourNode.metadata.table k))
    (sideOf theirNode (theirNode.metadata.table k)) theirNode.config.exchangeChannelCapacity).run
  act peer do
    modify fun n => { n with metadata := n.metadata.setTable k x.right.state }
    if x.right.outcome.toOption.any fun r => r.result.isUpdated then
      modify fun n => n.refreshTopology.1
  act seat (modify fun n => { n with metadata := n.metadata.setTable k x.left.state })
  x.left.outcome

/-- Runs an exchange with a peer. -/
def exchange (seat : Seat) (peer : NodeInfo) (subject : Subject) : Action Cluster Report := do
  let n ← act seat get
  let other ← connect n.info.address peer.address (.forSync "" n.stopped)
  match subject with
  | .replica r => exchangeReplica seat other r
  | .metadata k => exchangeMetadata seat other k

/-- Runs an exchange with a peer and notes what came of it. -/
def syncWith (seat : Seat) (peer : NodeInfo) (subject : Subject) (s : RoundSummary) :
    Action Cluster RoundSummary := do
  match ← Action.attempt (exchange seat peer subject) with
  | .ok report =>
    sending push seat fun st => st.reportSuccess peer
    let s := s.record report
    match subject with
    | .metadata _ =>
      if report.result.isUpdated then act seat (modify fun n => n.refreshTopology.1)
      return s
    | .replica r =>
      act seat (modify fun n => n.noteProgress r peer.id report.peerTimestamp)
      return if report.result.isUpdated then { s with updated := s.updated ++ [r] } else s
  | .error .cancelled => throw .cancelled
  | .error e =>
    if e.isFault then throw e
    if e.isUnreachable then sending push seat fun st => st.reportUnreachable peer
    return { s with failed := s.failed + 1 }

/-- Records the sizes of a node's replicas and pushes what has changed. -/
def publishSizes (seat : Seat) : Action Cluster Unit := do
  let clock := (← get).clock
  let deltas ← act seat do
    let (n, deltas) ← (← get).recordSizes clock
    set n
    return deltas
  match deltas with
  | none => return
  | some deltas =>
    let n ← act seat get
    announce seat (.metadata .replicaSizes) deltas (n.config.operation "")

/-- One replica's part of a round. -/
def syncReplica (seat : Seat) (s : RoundSummary) (r : ReplicaId) :
    Action Cluster RoundSummary := do
  let n ← act seat get
  let timer := (← get).timer
  let readers := n.distributor.readReplicas r
  let s ← match n.resumePeer timer r readers <|> n.pickPeer timer readers with
    | some peer => syncWith seat peer (.replica r) s
    | none => pure s
  let resumed ← act seat (ExceptT.lift (Node.finishResume r))
  return if resumed then { s with resumed := s.resumed ++ [r] } else s

/-- One round of a node. -/
def syncRound (seat : Seat) : Action Cluster RoundSummary := do
  let n ← act seat get
  let s ← match n.pickPeer (← get).timer n.metadata.members with
    | some peer => MetadataKind.all.foldlM (fun s k => syncWith seat peer (.metadata k) s) .empty
    | none => pure .empty
  act seat (modify fun n => n.refreshTopology.1)
  publishSizes seat
  let n ← act seat get
  (n.distributor.heldBy n.info.id).foldlM (syncReplica seat) s

end Cluster

end DeltaRing
