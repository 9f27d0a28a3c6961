import DeltaRing.Cluster.Push

/-!
Joining a cluster and creating instances in it.

A joiner is admitted by any member, which announces it and answers with its metadata. An instance
is created by recording its descriptor, from which every node that learns of it hosts it.
-/

namespace DeltaRing.Cluster

/-- Admits a node, announces it if it is new, and gives the full history of every table. -/
def handleJoin (seat : Seat) (joiner : NodeInfo) (ctx : OperationContext) :
    Action Cluster (List (MetadataKind × Payload)) := do
  let deltas ← act seat (modifyGet fun n =>
    let (metadata, deltas) := n.metadata.addMember joiner
    (deltas, { n with metadata }))
  if let some deltas := deltas then
    act seat (modify fun n => n.refreshTopology.1)
    announce seat (.metadata .membership) (Wire.encode deltas) ctx
  let n ← act seat get
  return MetadataKind.all.map fun k => (k, n.metadata.snapshot k)

/-- Joins by asking the node at an address. -/
def joinVia (seat : Seat) (address : String) : Action Cluster Unit := do
  let n ← act seat get
  let ctx := n.config.operation ""
  let other ← connect n.info.address address ctx
  let snapshots ← handleJoin other n.info ctx
  snapshots.forM fun (k, batch) => act seat do
    let (metadata, _) ← (← get).metadata.merge k batch
    modify fun n => { n with metadata }

/-- Asks at all addresses but the own; gives the number of those that answered. -/
def join (seat : Seat) (addresses : List String) : Action Cluster Nat := do
  let n ← act seat get
  let joined ← (addresses.filter fun a => a ≠ n.info.address).foldlM
    (fun joined address => do
      match ← Action.attempt (joinVia seat address) with
      | .ok _ => return joined + 1
      | .error _ => return joined)
    0
  act seat (modify fun n => n.refreshTopology.1)
  return joined

/-- Creates an instance, or gives the existing one if it is of the same type. -/
def createInstance (seat : Seat) (id : InstanceId) (type : CrdtType)
    (shards replicas : Option Nat) : Action Cluster Hosted := do
  let n ← act seat get
  if !n.types.contains type then throw (.unregisteredType type)
  match n.metadata.descriptor? id with
  | some existing =>
    if existing.crdtType ≠ type.name then
      throw (.unknownType s!"{id} already exists as {existing.crdtType}")
  | none =>
    let clock := (← get).clock
    let deltas ← act seat do
      let (metadata, deltas) ←
        (← get).metadata.registerInstance clock (n.describe id type shards replicas)
      modify fun n => { n with metadata }
      return deltas
    if let some deltas := deltas then
      act seat (modify fun n => n.refreshTopology.1)
      announce seat (.metadata .instances) (Wire.encode deltas) (n.config.operation "")
  act seat (Node.openInstance id type)

end DeltaRing.Cluster
