import DeltaRing.Placement

/-!
The cached placement plan.

The plan is computed anew only when the view changed in a way that matters: other members, other
holders, other replicas or requested counts, or a size that drifted by more than a threshold from
the size that the plan was computed from.
-/

namespace DeltaRing

/-- What placement is computed from. -/
structure ClusterView where
  nodes : List NodeInfo
  replicas : List ReplicaInfo
  holders : Holders

structure Distributor where
  strategy : Distribution
  /-- The relative size change up to which the plan is kept. -/
  threshold : Float
  nodes : List NodeInfo
  replicas : SortedMap ReplicaId ReplicaInfo
  holders : Holders
  plan : Plan
  /-- How often the plan has been computed. -/
  epoch : Nat

namespace Distributor

def ofThreshold (strategy : Distribution) (threshold : Float) : Distributor :=
  ⟨strategy, threshold, [], .empty, .empty, .empty, 0⟩

/-- The size changed by more than the threshold, relative to the old size. -/
def drifts (threshold : Float) (old new : Nat) : Bool :=
  let change := (new.toUInt64.toFloat - old.toUInt64.toFloat).abs
  threshold < change / (max old 1).toUInt64.toFloat

/-- A replica asks for another placement than before. -/
def replicaChanged (d : Distributor) (info : ReplicaInfo) : Bool :=
  match d.replicas.get? info.replica with
  | none => true
  | some before =>
    before.requestedReplicas ≠ info.requestedReplicas || drifts d.threshold before.size info.size

/-- The view differs from the plan's inputs in a way that matters. -/
def isMeaningful (d : Distributor) (nodes : List NodeInfo)
    (replicas : SortedMap ReplicaId ReplicaInfo) (holders : Holders) : Bool :=
  d.nodes ≠ nodes || d.holders ≠ holders || d.replicas.size ≠ replicas.size
    || replicas.values.any d.replicaChanged

/-- Takes a new view; says whether the plan was computed anew. -/
def update (d : Distributor) (view : ClusterView) : Distributor × Bool :=
  let nodes := Placement.ringOf view.nodes
  let replicas := SortedMap.ofList (view.replicas.map fun info => (info.replica, info))
  if 0 < d.epoch && !d.isMeaningful nodes replicas view.holders then (d, false)
  else
    ({ d with
        nodes, replicas
        holders := view.holders
        plan := d.strategy replicas.values nodes view.holders
        epoch := d.epoch + 1 },
      true)

def placement (d : Distributor) (replica : ReplicaId) : Placement := d.plan.getD replica default

def writeReplicas (d : Distributor) (replica : ReplicaId) : List NodeInfo :=
  (d.placement replica).write

def readReplicas (d : Distributor) (replica : ReplicaId) : List NodeInfo :=
  (d.placement replica).read

def isWriteReplica (d : Distributor) (replica : ReplicaId) (node : NodeId) : Bool :=
  (d.writeReplicas replica).any fun n => n.id = node

def isReadReplica (d : Distributor) (replica : ReplicaId) (node : NodeId) : Bool :=
  (d.readReplicas replica).any fun n => n.id = node

/-- The replicas that a node should hold a copy of. -/
def heldBy (d : Distributor) (node : NodeId) : List ReplicaId :=
  d.plan.keys.filter fun replica => d.isReadReplica replica node

end Distributor

end DeltaRing
