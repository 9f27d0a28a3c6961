import DeltaRing.Encoded
import DeltaRing.CrdtType
import DeltaRing.Identity
import DeltaRing.Sharding

/-!
Instances as a node hosts them: all their shards, of one replicated type.
-/

namespace DeltaRing

structure Hosted where
  id : InstanceId
  type : CrdtType
  replicaCount : Nat
  /-- The states of the shards, of which there is one at least. -/
  shards : List type.State

namespace Hosted

/-- A fresh instance of a known type. -/
def ofDescriptor (type : CrdtType) (d : InstanceDescriptor) : Hosted :=
  ⟨d.instanceId, type, d.replicaCount, List.replicate (shardsOf d.shardCount) initial⟩

def replica (h : Hosted) (shard : ShardId) : ReplicaId := ⟨h.id, shard⟩

/-- The shard that a key belongs to. -/
def shardOf (h : Hosted) (key : h.type.KeyType) : ShardId := shardFor key h.shards.length

/-- The shard that an operation acts on. -/
def shardOfOperation (h : Hosted) (op : h.type.Operation) : ShardId :=
  h.shardOf (Operable.operationKey (S := h.type.State) op)

def shard (h : Hosted) (shard : ShardId) : Except ClusterError h.type.State :=
  match h.shards[shard]? with
  | some s => .ok s
  | none => .error (.violation s!"{h.id} has no shard {shard}")

def setShard (h : Hosted) (shard : ShardId) (s : h.type.State) : Hosted :=
  { h with shards := h.shards.set shard s }

def timestampOf (h : Hosted) (shard : ShardId) : Except ClusterError Payload :=
  (h.shard shard).map Encoded.timestampOf

def covers (h : Hosted) (shard : ShardId) (ts : Payload) : Except ClusterError Bool := do
  Encoded.covers (← h.shard shard) ts

/-- Merges an encoded batch into a shard. -/
def merge (h : Hosted) (shard : ShardId) (batch : Payload) :
    Except ClusterError (Hosted × MergeResult) := do
  let (s, result) ← Encoded.merge (← h.shard shard) batch
  return (h.setShard shard s, result)

/-- Applies an operation to its shard. -/
def apply (h : Hosted) (actor : Actor) (op : h.type.Operation) :
    Except ClusterError (Hosted × h.type.Output × List h.type.Delta) := do
  let shard := h.shardOfOperation op
  let (s, output, deltas) := Operable.apply (← h.shard shard) actor op
  return (h.setShard shard s, output, deltas)

/-- The size of every shard. -/
def sizes (h : Hosted) : List (ShardId × Nat) :=
  h.shards.zipIdx.map fun (s, shard) => (shard, sizeEstimate s)

end Hosted

end DeltaRing
