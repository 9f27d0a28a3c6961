import DeltaRing.Checkpoint
import DeltaRing.Config
import DeltaRing.Hosting
import DeltaRing.Metadata
import DeltaRing.Station

/-!
One node: the metadata it keeps, the instances it hosts, and the placement it has computed.

What a node does on its own is here; what it does to others needs a cluster. An instance is hosted
as soon as its descriptor is known, and placement follows the metadata: after every change of
them the topology is refreshed.
-/

namespace DeltaRing

structure Node where
  info : NodeInfo
  config : NodeConfig
  /-- The types that the node can host. -/
  types : List CrdtType
  /-- Which write replicas a push goes to. -/
  propagation : Strategy
  /-- Which write replica an operation is forwarded to. -/
  rerouting : Strategy
  /-- Which peer an exchange runs with. -/
  antiEntropy : Strategy
  metadata : Metadata
  hosted : SortedMap InstanceId Hosted
  distributor : Distributor
  outbox : Outbox
  /-- The timestamps that peers opened their last exchanges with, by replica. -/
  progress : SortedMap ReplicaId (SortedMap NodeId Payload)
  /-- What a restored checkpoint says of the replicas that have not caught up with it. -/
  resume : SortedMap ReplicaId ReplicaCheckpoint
  /-- The node has been shut down. -/
  stopped : Bool

namespace Node

/-! ### Topology -/

/-- Hosts the instances whose descriptors are known, as far as their types are. The first
descriptor of an instance decides. -/
def hostDescribed (n : Node) : Node :=
  let host (hosted : SortedMap InstanceId Hosted) (d : InstanceDescriptor) :=
    if hosted.contains d.instanceId then hosted
    else
      match n.types.find? fun t => t.name = d.crdtType with
      | some t => hosted.insert d.instanceId (.ofDescriptor t d)
      | none => hosted
  { n with hosted := n.metadata.descriptors.foldl host n.hosted }

/-- The reported sizes of stored replicas on members; an empty copy counts as none. -/
def storedSizes (m : Metadata) : List (ReplicaHolding × Nat) :=
  m.sizes.items.filter fun (holding, size) => size ≠ 0 && m.isMember holding.node

/-- What placement is computed from: the members, every described replica with the largest size
that is reported of it, and the nodes that report any. -/
def view (m : Metadata) : ClusterView :=
  let stored := storedSizes m
  let sizes : SortedMap ReplicaId Nat := stored.foldl
    (fun sizes (h, size) => sizes.alter h.replica fun largest => max (largest.getD 0) size) .empty
  let holders : Holders := stored.foldl
    (fun holders (h, _) => holders.alter h.replica fun nodes => (nodes.getD .empty).insert h.node)
    .empty
  { nodes := m.members
    replicas := m.descriptors.flatMap fun d =>
      d.replicas.map fun replica => ⟨replica, sizes.getD replica 0, d.replicaCount⟩
    holders }

/-- Hosts what is described and takes the metadata to placement; says whether the plan changed. -/
def refreshTopology (n : Node) : Node × Bool :=
  let n := n.hostDescribed
  let (distributor, changed) := n.distributor.update (view n.metadata)
  ({ n with distributor }, changed)

/-- A node that knows itself to be a member. -/
def create (info : NodeInfo) (config : NodeConfig) (types : List CrdtType)
    (propagation rerouting antiEntropy : Strategy) : Node :=
  let (metadata, _) := (Metadata.ofActor info.id).addMember info
  let n : Node :=
    { info, config, types, propagation, rerouting, antiEntropy, metadata
      hosted := .empty
      distributor := .ofThreshold Placement.ringDistribution config.sizeChangeThreshold
      outbox := ⟨.ofRecheck config.unreachableRecheck, .ofCapacity config.retryBufferCapacity⟩
      progress := .empty
      resume := .empty
      stopped := false }
  n.refreshTopology.1

/-! ### Hosted instances -/

/-- The descriptor of an instance that the node creates. Counts that are left out are those of its
configuration. -/
def describe (n : Node) (id : InstanceId) (type : CrdtType) (shards replicas : Option Nat) :
    InstanceDescriptor :=
  ⟨id, type.name, shardsOf (shards.getD n.config.defaultShardCount),
    max (replicas.getD n.config.defaultReplicaCount) 1⟩

/-- A hosted instance; the topology is refreshed once if there is none. -/
def hostedInstance (id : InstanceId) : Action Node Hosted := do
  match (← get).hosted.get? id with
  | some h => return h
  | none =>
    modify fun n => n.refreshTopology.1
    match (← get).hosted.get? id with
    | some h => return h
    | none => throw (.instanceNotFound id)

def setHosted (n : Node) (h : Hosted) : Node := { n with hosted := n.hosted.insert h.id h }

/-- A hosted instance of the expected type. -/
def openInstance (id : InstanceId) (type : CrdtType) : Action Node Hosted := do
  let h ← hostedInstance id
  if h.type = type then return h else throw (.otherType id type)

/-- The encoded timestamp of a replica. -/
def timestampOf (replica : ReplicaId) : Action Node Payload := do
  (← hostedInstance replica.instanceId).timestampOf replica.shard

/-- A replica has merged everything that an encoded timestamp reflects. -/
def covers (replica : ReplicaId) (ts : Payload) : Action Node Bool := do
  (← hostedInstance replica.instanceId).covers replica.shard ts

/-- Merges an encoded batch into what it belongs to. -/
def merge (subject : Subject) (batch : Payload) : Action Node MergeResult := do
  match subject with
  | .replica r =>
    let (h, result) ← (← hostedInstance r.instanceId).merge r.shard batch
    modify fun n => n.setHosted h
    return result
  | .metadata k =>
    let (metadata, result) ← (← get).metadata.merge k batch
    modify fun n => { n with metadata }
    if result.isUpdated then modify fun n => n.refreshTopology.1
    return result

/-! ### Sizes -/

/-- The sizes that the node reports: of the replicas that it stores anything of or should hold. -/
def sizeReports (n : Node) : List (ReplicaHolding × Nat) :=
  n.hosted.values.flatMap fun h =>
    h.sizes.filterMap fun (shard, size) =>
      if 0 < size || n.distributor.isReadReplica (h.replica shard) n.info.id then
        some (⟨h.replica shard, n.info.id⟩, size)
      else none

/-- Records the own sizes; gives the encoded deltas if any has changed. -/
def recordSizes (n : Node) (clock : Int) : Except ClusterError (Node × Option Payload) := do
  let (metadata, δs) ← n.metadata.recordSizes clock n.sizeReports
  return if δs.isSome then ({ n with metadata }.refreshTopology.1, δs.map Wire.encode)
    else ({ n with metadata }, none)

/-! ### Peers -/

/-- The first pick of the strategy among the candidates that are not marked. -/
def pickPeer (n : Node) (timer : Nat) (candidates : List NodeInfo) : Option NodeInfo :=
  (n.antiEntropy n.info (candidates.filter fun c => !n.outbox.failures.isUnreachable timer c.id)).head?

/-- A reader of a replica, not marked, that the checkpoint names as a peer of it. -/
def resumePeer (n : Node) (timer : Nat) (replica : ReplicaId) (readers : List NodeInfo) :
    Option NodeInfo := do
  let checkpoint ← n.resume.get? replica
  readers.find? fun r => r.id ≠ n.info.id && checkpoint.peers.contains r.id
    && !n.outbox.failures.isUnreachable timer r.id

/-- Notes the timestamp that a peer opened an exchange of a replica with. -/
def noteProgress (n : Node) (replica : ReplicaId) (peer : NodeId) (ts : Payload) : Node :=
  { n with progress := n.progress.alter replica fun peers => (peers.getD .empty).insert peer ts }

/-! ### Checkpoints -/

def pendingResume (n : Node) : List ReplicaId := n.resume.keys

/-- Takes up a checkpoint; one that names another node is ignored. -/
def restore (n : Node) (c : Checkpoint) : Node :=
  if c.node.any fun owner => owner ≠ n.info.id then n
  else
    { n with
      progress := c.replicas.foldl (fun m r => m.insert r.replica r.peers) n.progress
      resume := c.replicas.foldl (fun m r => m.insert r.replica r) n.resume }

/-- Takes a replica off those that have to catch up, if it covers its checkpoint; says so. -/
def finishResume (replica : ReplicaId) : StateM Node Bool := do
  match (← get).resume.get? replica with
  | none => return false
  | some c =>
    match ← (covers replica c.localTimestamp).run with
    | .ok true =>
      modify fun n => { n with resume := n.resume.erase replica }
      return true
    | _ => return false

/-- The replicas held here and the timestamps they have reached, then those that still have to
catch up, with the timestamps they have to reach. -/
def checkpoint (time : Nat) : StateM Node Checkpoint := do
  let n ← get
  let peersOf (replica : ReplicaId) : SortedMap NodeId Payload := n.progress.getD replica .empty
  let held := (n.distributor.heldBy n.info.id).filter fun r => !n.resume.contains r
  let reached ← held.filterMapM fun replica => do
    match ← (timestampOf replica).run with
    | .ok ts => return some (⟨replica, ts, peersOf replica⟩ : ReplicaCheckpoint)
    | .error _ => return none
  let resuming := n.resume.values.map fun c => { c with peers := peersOf c.replica }
  return ⟨some n.info.id, time, reached ++ resuming⟩

end Node

end DeltaRing
