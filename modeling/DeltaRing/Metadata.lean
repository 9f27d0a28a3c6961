import DeltaRing.OrSet
import DeltaRing.Registry
import DeltaRing.Identity
import DeltaRing.Encoded
import DeltaRing.Clock

/-!
The metadata of a cluster, which every node keeps in full.

Members form a set; the descriptors of instances and the sizes of the stored replicas are
registries. All three are replicated like user data. A local write to a registry takes a stamp
beyond the one it replaces, whatever the clock says, so that it always takes effect.
-/

namespace DeltaRing

structure Metadata where
  /-- The name under which the local node writes. -/
  actor : Actor
  membership : OrSet NodeInfo
  instances : LwwRegistry InstanceId InstanceDescriptor
  sizes : LwwRegistry ReplicaHolding Nat
deriving DecidableEq

namespace Metadata

def ofActor (actor : Actor) : Metadata := ⟨actor, .empty, .empty, .empty⟩

/-! ### Reading -/

def members (m : Metadata) : List NodeInfo := m.membership.items

def isMember (m : Metadata) (id : NodeId) : Bool := m.members.any fun n => n.id = id

def descriptors (m : Metadata) : List InstanceDescriptor := m.instances.items.map Prod.snd

def descriptor? (m : Metadata) (id : InstanceId) : Option InstanceDescriptor := m.instances.get? id

/-! ### Local writes -/

/-- Adds a member unless it is one; gives the deltas to push. -/
def addMember (m : Metadata) (node : NodeInfo) :
    Metadata × Option (List (OrSetDelta NodeInfo)) :=
  if m.membership.contains node then (m, none)
  else
    let (membership, δ) := m.membership.add m.actor node
    ({ m with membership }, some [δ])

/-- The time now, or one more than the time to be replaced if that is not earlier. -/
def nextTime (now : Nat) (previous : Option Nat) : Nat :=
  match previous with
  | none => now
  | some t => if now ≤ t then t + 1 else now

/-- Writes a value that differs from the present one, beyond the present stamp. Only then the clock
is read. -/
def replaceEntry {K V : Type} [Key K] [DecidableEq V] (actor : Actor) (clock : Int)
    (r : LwwRegistry K V) (key : K) (value : V) :
    Except ClusterError (LwwRegistry K V × Option (LwwDelta K V)) :=
  if r.get? key = some value then .ok (r, none)
  else do
    let time := nextTime (← readClock clock) ((r.stamp? key).map LwwStamp.time)
    let (r, written) := r.write (.set key value ⟨time, actor⟩)
    return (r, written.toOption)

/-- Records a descriptor unless the same is recorded; gives the deltas to push. -/
def registerInstance (m : Metadata) (clock : Int) (d : InstanceDescriptor) :
    Except ClusterError (Metadata × Option (List (LwwDelta InstanceId InstanceDescriptor))) := do
  let (instances, δ?) ← replaceEntry m.actor clock m.instances d.instanceId d
  return ({ m with instances }, δ?.map fun δ => [δ])

/-- Records one size after the other; gives the deltas of those that changed anything. -/
def recordSizes (m : Metadata) (clock : Int) (reports : List (ReplicaHolding × Nat)) :
    Except ClusterError (Metadata × Option (List (LwwDelta ReplicaHolding Nat))) := do
  let (sizes, δs) ← reports.foldlM
    (fun (sizes, δs) (holding, size) => do
      let (sizes, δ?) ← replaceEntry m.actor clock sizes holding size
      return (sizes, δs ++ δ?.toList))
    (m.sizes, ([] : List (LwwDelta ReplicaHolding Nat)))
  return ({ m with sizes }, if δs.isEmpty then none else some δs)

/-! ### Tables by kind -/

/-- The state of a table. -/
abbrev Table : MetadataKind → Type
  | .membership => OrSet NodeInfo
  | .instances => LwwRegistry InstanceId InstanceDescriptor
  | .replicaSizes => LwwRegistry ReplicaHolding Nat

abbrev TableDelta : MetadataKind → Type
  | .membership => OrSetDelta NodeInfo
  | .instances => LwwDelta InstanceId InstanceDescriptor
  | .replicaSizes => LwwDelta ReplicaHolding Nat

abbrev TableTimestamp : MetadataKind → Type
  | .membership => CausalContext
  | .instances => LwwTimestamp InstanceId
  | .replicaSizes => LwwTimestamp ReplicaHolding

instance : (k : MetadataKind) → CausalTimestamp (TableTimestamp k) (TableDelta k)
  | .membership => inferInstanceAs (CausalTimestamp CausalContext (OrSetDelta NodeInfo))
  | .instances =>
    inferInstanceAs (CausalTimestamp (LwwTimestamp InstanceId) (LwwDelta InstanceId _))
  | .replicaSizes =>
    inferInstanceAs (CausalTimestamp (LwwTimestamp ReplicaHolding) (LwwDelta ReplicaHolding _))

instance : (k : MetadataKind) → DeltaCrdt (Table k) (TableDelta k) (TableTimestamp k)
  | .membership => inferInstanceAs (DeltaCrdt (OrSet NodeInfo) _ _)
  | .instances => inferInstanceAs (DeltaCrdt (LwwRegistry InstanceId InstanceDescriptor) _ _)
  | .replicaSizes => inferInstanceAs (DeltaCrdt (LwwRegistry ReplicaHolding Nat) _ _)

instance : (k : MetadataKind) → Wire (TableDelta k)
  | .membership => inferInstanceAs (Wire (OrSetDelta NodeInfo))
  | .instances => inferInstanceAs (Wire (LwwDelta InstanceId InstanceDescriptor))
  | .replicaSizes => inferInstanceAs (Wire (LwwDelta ReplicaHolding Nat))

instance : (k : MetadataKind) → Wire (TableTimestamp k)
  | .membership => inferInstanceAs (Wire CausalContext)
  | .instances => inferInstanceAs (Wire (LwwTimestamp InstanceId))
  | .replicaSizes => inferInstanceAs (Wire (LwwTimestamp ReplicaHolding))

def table (m : Metadata) : (k : MetadataKind) → Table k
  | .membership => m.membership
  | .instances => m.instances
  | .replicaSizes => m.sizes

def setTable (m : Metadata) : (k : MetadataKind) → Table k → Metadata
  | .membership, membership => { m with membership }
  | .instances, instances => { m with instances }
  | .replicaSizes, sizes => { m with sizes }

/-- The full history of a table in one batch. -/
def snapshot (m : Metadata) (k : MetadataKind) : Payload := Encoded.history (m.table k)

def timestampOf (m : Metadata) (k : MetadataKind) : Payload := Encoded.timestampOf (m.table k)

/-- Merges an encoded batch into a table. -/
def merge (m : Metadata) (k : MetadataKind) (batch : Payload) :
    Except ClusterError (Metadata × MergeResult) := do
  let (table, result) ← Encoded.merge (m.table k) batch
  return (m.setTable k table, result)

end Metadata

end DeltaRing
