import DeltaRing.Cluster.Lifecycle
import DeltaRing.View.Shown

/-!
What a reader sees of a cluster: placements, configurations, exchanges, metadata and nodes.
-/

namespace DeltaRing

instance : Shown Placement where
  shown p := .object [field "write" p.write, field "read" p.read]

/-- Nodes in the order of their display texts. -/
def sortedNodes (ns : List NodeInfo) : List String :=
  (ns.map NodeInfo.display).mergeSort fun a b => (compare a b).isLE

/-- The events that waited, after the number of those that were missed, if any. -/
instance : Shown EventQueue where
  shown q := .array
    ((if 0 < q.missed then [.object [field "lagged" q.missed]] else [])
      ++ q.waiting.map fun e => .text e.display)

/-- How many pushes wait for each of the nodes. -/
def Outbox.pending (o : Outbox) (nodes : List NodeId) : Json := .object
  (nodes.map fun id => field id (o.retry.pendingFor id))

/-- The bits of a double as 16 hexadecimal digits. -/
def bitsText (f : Float) : String :=
  let digits := Nat.toDigits 16 f.toBits.toNat
  String.ofList (List.replicate (16 - digits.length) '0' ++ digits)

/-- A configuration is shown as its document, with the bits of its threshold, and then its
intervals once more. -/
instance : Shown NodeConfig where
  shown c := .object
    [field "node_id" c.nodeId, field "address" c.address,
      field "default_shard_count" c.defaultShardCount,
      field "default_replica_count" c.defaultReplicaCount,
      field "propagation_budget" c.propagationBudget, field "max_reroute_hops" c.maxRerouteHops,
      field "await_propagation" c.awaitPropagation,
      field "anti_entropy_interval_ms" c.antiEntropyInterval,
      field "exchange_batch_size" c.exchangeBatchSize,
      field "exchange_channel_capacity" c.exchangeChannelCapacity,
      field "retry_buffer_capacity" c.retryBufferCapacity,
      field "size_change_threshold" (bitsText c.sizeChangeThreshold),
      field "unreachable_recheck_ms" c.unreachableRecheck, field "static_peers" c.staticPeers,
      field "snapshot_path" c.snapshotPath, field "snapshot_interval_ms" c.snapshotInterval,
      field "intervals_ms" [c.antiEntropyInterval, c.unreachableRecheck, c.snapshotInterval]]

instance : Shown OperationContext where
  shown c := .object
    [field "origin" c.origin, field "budget" c.budget, field "hops" c.hops,
      field "cancelled" c.cancelled]

/-! ### Exchanges -/

instance : Shown Exchange.Report where
  shown r := .object
    [field "sent" r.sent, field "received" r.received, field "result" r.result,
      field "peer_ts" r.peerTimestamp]

instance : Shown Frame where
  shown
    | .timestamp p => .object [field "ts" p]
    | .deltas p => .object [field "deltas" p]
    | .done => .text "done"

instance : Shown RoundSummary where
  shown s := .object
    [field "exchanges" s.exchanges, field "failed" s.failed, field "sent" s.sent,
      field "received" s.received, field "updated" s.updated, field "resumed" s.resumed]

/-- The checkpoint with its timestamps as texts. -/
def Checkpoint.summary (c : Checkpoint) : Json := .object
  [field "node" c.node, ("taken_at_ms", .int c.takenAt),
    field "replicas" (c.replicas.map fun r => Json.object
      [field "replica" r.replica, field "local" r.localTimestamp,
        ("peers", .object (r.peers.entries.map fun (peer, ts) => field peer ts))])]

/-! ### Nodes -/

instance : Shown Metadata where
  shown m := .object
    [("members", toJson m.members), field "instances" m.descriptors,
      field "sizes" (m.sizes.items.map fun (holding, size) => (toJson holding, size))]

instance : Shown Hosted where
  shown h := .object
    [field "id" h.id, field "type" h.type.name, field "shards" h.shards.length,
      field "replicas" h.replicaCount]

/-- What a node is a member of, plans for, should hold and hosts. -/
instance : Shown Node where
  shown n := .object
    [field "members" n.metadata.members, field "planned_for" n.distributor.nodes,
      field "epoch" n.distributor.epoch, field "held" (n.distributor.heldBy n.info.id),
      field "hosted" (n.hosted.values.map fun h => Json.array
        [shown h.id, shown h.type.name, shown h.shards.length, shown h.replicaCount,
          shown h.sizes])]

end DeltaRing
