import DeltaRing.Identity
import DeltaRing.CrdtType

/-!
What can go wrong in a cluster, and how it is worded.
-/

namespace DeltaRing

/-- Why no node was found to forward an operation to. -/
inductive RoutingFailure where
  | targetIsSelf
  | targetIsOrigin
  | noCandidates
  | hopLimit (hops : Nat)
deriving DecidableEq

def RoutingFailure.message : RoutingFailure → String
  | targetIsSelf => "computed target is this node"
  | targetIsOrigin => "computed target is the operation's origin"
  | noCandidates => "no reachable write replica"
  | hopLimit hops => s!"already rerouted {hops} times"

inductive ClusterError where
  | routing (replica : ReplicaId) (failure : RoutingFailure)
  | unreachable (node : NodeId) (reason : String)
  | serialization (detail : String)
  | violation (detail : String)
  | instanceNotFound (instanceId : InstanceId)
  | unknownType (detail : String)
  /-- The node has no name for the type. -/
  | unregisteredType (type : CrdtType)
  /-- The instance is hosted, but not as this type. -/
  | otherType (instanceId : InstanceId) (expected : CrdtType)
  | cancelled
  | config (detail : String)
  /-- The text holds no configuration at all. -/
  | unreadableConfig
  | snapshot (detail : String)
  /-- The clock shows a time that the calendar has no date for. -/
  | noDate
  /-- A queue was to have room for more frames than any can. -/
  | queueTooLarge
deriving DecidableEq

namespace ClusterError

def message : ClusterError → String
  | routing replica failure => "Routing error for " ++ replica.display ++ ": " ++ failure.message
  | unreachable node reason => s!"Node unreachable: {node} ({reason})"
  | serialization detail => s!"Serialization error: {detail}"
  | violation detail => s!"Merge protocol violation: {detail}"
  | instanceNotFound instanceId => s!"Instance not found: {instanceId}"
  | unknownType detail => s!"Unknown CRDT type: {detail}"
  | unregisteredType type => "Unknown CRDT type: " ++ type.name
  | otherType instanceId expected =>
    "Unknown CRDT type: " ++ instanceId ++ " is not a " ++ expected.name
  | cancelled => "Operation cancelled"
  | config detail => s!"Invalid configuration: {detail}"
  | unreadableConfig => "Invalid configuration: not a configuration"
  | snapshot detail => s!"Snapshot error: {detail}"
  | noDate => "The clock shows no date"
  | queueTooLarge => "The queue is too large"

def isUnreachable : ClusterError → Bool
  | unreachable .. => true
  | _ => false

/-- A fault in the surroundings, which ends all that met it. The other errors are failures that a
caller may carry on from. -/
def isFault : ClusterError → Bool
  | noDate | queueTooLarge => true
  | _ => false

end ClusterError

/-- Reads a value that must be there, or fails. -/
def Wire.decode {α : Type} [Wire α] (p : Payload) : Except ClusterError α :=
  match decode? p with
  | some a => .ok a
  | none => .error (.serialization "the text does not decode")

end DeltaRing
