import DeltaRing.Wire

/-!
Nodes, instances and replicas.

An instance is cut into shards, and one shard of one instance is a replica: the unit of placement
and replication. A node is known by its id and reached at its address; nodes are ordered by id.
-/

namespace DeltaRing

abbrev NodeId := String
abbrev InstanceId := String
abbrev ShardId := Nat

/-- A node and where to reach it. -/
structure NodeInfo where
  id : NodeId
  address : String
deriving DecidableEq

/-- One shard of one instance. -/
structure ReplicaId where
  instanceId : InstanceId
  shard : ShardId
deriving DecidableEq

/-- A replica as placement sees it. -/
structure ReplicaInfo where
  replica : ReplicaId
  size : Nat
  requestedReplicas : Nat
deriving DecidableEq

/-- What a node needs to know to host an instance. -/
structure InstanceDescriptor where
  instanceId : InstanceId
  /-- The registered name of its type. -/
  crdtType : String
  shardCount : Nat
  replicaCount : Nat
deriving DecidableEq

/-- One node's copy of one replica. -/
structure ReplicaHolding where
  replica : ReplicaId
  node : NodeId
deriving DecidableEq

/-- The replicated tables that make up the metadata of a cluster. -/
inductive MetadataKind where
  | membership
  | instances
  | replicaSizes
deriving DecidableEq

namespace NodeInfo

instance : Key NodeInfo := Key.onto (fun n => (n.id, n.address)) fun
  | ⟨_, _⟩, ⟨_, _⟩, h => by simpa using h

instance : Wire NodeInfo where
  toJson n := .object [("id", toJson n.id), ("address", toJson n.address)]
  ofJson? j := do
    let [id, address] ← j.record ["id", "address"] | none
    return ⟨← id.required ofJson?, ← address.required ofJson?⟩

def display (n : NodeInfo) : String := s!"{n.id}@{n.address}"

end NodeInfo

namespace ReplicaId

instance : Key ReplicaId := Key.onto (fun r => (r.instanceId, r.shard)) fun
  | ⟨_, _⟩, ⟨_, _⟩, h => by simpa using h

instance : Wire ReplicaId where
  toJson r := .object [("instance", toJson r.instanceId), ("shard", toJson r.shard)]
  ofJson? j := do
    let [instanceId, shard] ← j.record ["instance", "shard"] | none
    return ⟨← instanceId.required ofJson?, ← shard.required (Json.asNat word16)⟩

def display (r : ReplicaId) : String := s!"{r.instanceId}/{r.shard}"

end ReplicaId

instance : Wire ReplicaInfo where
  toJson r := .object
    [("replica", toJson r.replica), ("size", toJson r.size),
      ("requested_replicas", toJson r.requestedReplicas)]
  ofJson? j := do
    let [replica, size, requested] ← j.record ["replica", "size", "requested_replicas"] | none
    return ⟨← replica.required ofJson?, ← size.required ofJson?,
      ← requested.required (Json.asNat word32)⟩

namespace InstanceDescriptor

instance : Key InstanceDescriptor :=
  Key.onto (fun d => (d.instanceId, d.crdtType, d.shardCount, d.replicaCount)) fun
    | ⟨_, _, _, _⟩, ⟨_, _, _, _⟩, h => by simpa using h

instance : Wire InstanceDescriptor where
  toJson d := .object
    [("instance", toJson d.instanceId), ("crdt_type", toJson d.crdtType),
      ("shard_count", toJson d.shardCount), ("replica_count", toJson d.replicaCount)]
  ofJson? j := do
    let [instanceId, crdtType, shards, replicas] ←
      j.record ["instance", "crdt_type", "shard_count", "replica_count"] | none
    return ⟨← instanceId.required ofJson?, ← crdtType.required ofJson?,
      ← shards.required (Json.asNat word16), ← replicas.required (Json.asNat word32)⟩

/-- The replicas of the instance, one per shard. -/
def replicas (d : InstanceDescriptor) : List ReplicaId :=
  (List.range d.shardCount).map fun shard => ⟨d.instanceId, shard⟩

end InstanceDescriptor

namespace ReplicaHolding

instance : Key ReplicaHolding := Key.onto (fun h => (h.replica, h.node)) fun
  | ⟨_, _⟩, ⟨_, _⟩, h => by simpa using h

instance : Wire ReplicaHolding where
  toJson h := .object [("replica", toJson h.replica), ("node", toJson h.node)]
  ofJson? j := do
    let [replica, node] ← j.record ["replica", "node"] | none
    return ⟨← replica.required ofJson?, ← node.required ofJson?⟩

end ReplicaHolding

namespace MetadataKind

def all : List MetadataKind := [membership, instances, replicaSizes]

def name : MetadataKind → String
  | membership => "membership"
  | instances => "instances"
  | replicaSizes => "replica_sizes"

/-- The place of a table in the order of the tables. -/
def rank : MetadataKind → Nat
  | membership => 0
  | instances => 1
  | replicaSizes => 2

instance : Key MetadataKind := Key.onto rank fun a b h => by
  cases a <;> cases b <;> simp_all [rank]

instance : Wire MetadataKind where
  toJson k := .text k.name
  ofJson? j := do
    match ← j.unitVariant with
    | "membership" => return membership
    | "instances" => return instances
    | "replica_sizes" => return replicaSizes
    | _ => none

end MetadataKind

end DeltaRing
