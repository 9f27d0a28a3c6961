import DeltaRing.Cluster.Push
import DeltaRing.Rerouting

/-!
Operations on the instances of a cluster.

A node that writes the key's shard applies the operation and pushes its deltas; any other node
forwards the operation to one that does. Forwarding ends, because every forwarded operation
has one hop more than before and every node refuses it from some number of hops on.
-/

namespace DeltaRing.Cluster

/-- Calls a peer, as a node, to execute an encoded operation. -/
abbrev OperationCall :=
  NodeInfo → NodeInfo → ReplicaId → Payload → OperationContext → Action Cluster Payload

/-- Applies an operation at a node that hosts its instance, or forwards it from there. -/
def applyBy (call : OperationCall) (seat : Seat) (h : Hosted) (op : h.type.Operation)
    (ctx : OperationContext) : Action Cluster h.type.Output := do
  ctx.ensureActive
  let replica := h.replica (h.shardOfOperation op)
  let n ← act seat get
  if n.distributor.isWriteReplica replica n.info.id then
    let (h', output, deltas) ← h.apply n.info.id op
    act seat (modify fun n => n.setHosted h')
    if !deltas.isEmpty then
      announce seat (.replica replica) (Wire.encode deltas)
        (if n.config.awaitPropagation then ctx else ctx.detached)
    return output
  else
    let output ← sending push seat fun st =>
      st.reroute (call n.info) replica (Wire.encode op) ctx
    Wire.decode output

/-- What a node does with an operation that has been forwarded to it. -/
def executeBy (call : OperationCall) (seat : Seat) (replica : ReplicaId) (operation : Payload)
    (ctx : OperationContext) : Action Cluster Payload := do
  let h ← act seat (Node.hostedInstance replica.instanceId)
  let op : h.type.Operation ← Wire.decode operation
  let expected := h.shardOfOperation op
  if expected ≠ replica.shard then
    throw (.violation
      s!"operation for {h.id} shard {expected} arrived for shard {replica.shard}")
  return Wire.encode (← applyBy call seat h op ctx)

/-- A call that is forwarded less than `hops` times. -/
def callWithin : Nat → OperationCall
  | 0, _, _, _, _, _ => throw (.violation "operation forwarded too often")
  | hops + 1, caller, peer, replica, operation, ctx => do
    let seat ← connect caller.address peer.address ctx
    executeBy (callWithin hops) seat replica operation ctx

/-- More hops than any node lets an operation take. -/
def hopBound (c : Cluster) : Nat :=
  (c.nodes.values.map fun n => n.config.maxRerouteHops).foldl max 0 + 1

/-- Calls a peer to execute an encoded operation. -/
def call : OperationCall := fun caller peer replica operation ctx => do
  callWithin (← get).hopBound caller peer replica operation ctx

def handleOperation (seat : Seat) (replica : ReplicaId) (operation : Payload)
    (ctx : OperationContext) : Action Cluster Payload :=
  executeBy call seat replica operation ctx

/-- Applies an operation that enters the cluster at a node with a context of its own. -/
def applyWith (seat : Seat) (h : Hosted) (op : h.type.Operation) (ctx : OperationContext) :
    Action Cluster h.type.Output :=
  applyBy call seat h op ctx

/-- Applies an operation that enters the cluster at a node. -/
def execute (seat : Seat) (h : Hosted) (op : h.type.Operation) (traceId : String) :
    Action Cluster h.type.Output := do
  let n ← act seat get
  applyWith seat h op (n.config.operation traceId)

end DeltaRing.Cluster
