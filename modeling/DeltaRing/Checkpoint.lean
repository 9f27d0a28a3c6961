import DeltaRing.Identity

/-!
Sync checkpoints.

Replicas live in memory only. What survives a restart is, for every replica that a node holds, the
timestamp it had reached and the timestamp each peer opened its last exchange with.
-/

namespace DeltaRing

structure ReplicaCheckpoint where
  replica : ReplicaId
  /-- The encoded local timestamp. -/
  localTimestamp : Payload
  /-- The encoded timestamp that each peer opened its last exchange with. -/
  peers : SortedMap NodeId Payload
deriving DecidableEq

structure Checkpoint where
  node : Option NodeId
  /-- Unix time in milliseconds. -/
  takenAt : Int
  replicas : List ReplicaCheckpoint
deriving DecidableEq

instance : Wire ReplicaCheckpoint where
  toJson c := .object
    [("replica", toJson c.replica), ("local", toJson c.localTimestamp), ("peers", toJson c.peers)]
  ofJson? j := do
    let [replica, localTimestamp, peers] ← j.record ["replica", "local", "peers"] | none
    return ⟨← replica.required ofJson?, ← localTimestamp.required ofJson?,
      ← peers.defaulted .empty ofJson?⟩

instance : Wire Checkpoint where
  toJson c := .object
    [("node", toJson c.node), ("taken_at_ms", toJson c.takenAt), ("replicas", toJson c.replicas)]
  ofJson? j := do
    let [node, takenAt, replicas] ← j.record ["node", "taken_at_ms", "replicas"] | none
    return ⟨← node.optional ofJson?, ← takenAt.required ofJson?, ← replicas.defaulted [] ofJson?⟩

end DeltaRing
