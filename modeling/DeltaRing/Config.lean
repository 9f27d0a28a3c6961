import DeltaRing.OperationContext
import DeltaRing.Text.Blank

/-!
The configuration of a node: defaults, settings, reading it from a document, and the rules that it
has to keep, of which the first one broken is reported.
-/

namespace DeltaRing

structure NodeConfig where
  /-- The node's id; one is generated if there is none. -/
  nodeId : Option NodeId := none
  /-- Where peers reach the node. -/
  address : String := "127.0.0.1:7400"
  /-- Shards of an instance that does not ask otherwise. -/
  defaultShardCount : Nat := 8
  /-- Write replicas of a shard whose instance does not ask otherwise. -/
  defaultReplicaCount : Nat := 3
  /-- The fan-out budget of operations that enter here. -/
  propagationBudget : Nat := 2
  /-- The reroutes after which an operation is refused. -/
  maxRerouteHops : Nat := 3
  /-- A write returns only after it has been pushed. -/
  awaitPropagation : Bool := true
  /-- Milliseconds between rounds of anti-entropy. -/
  antiEntropyInterval : Nat := 1000
  /-- The most deltas in a batch of an exchange. -/
  exchangeBatchSize : Nat := 64
  /-- Frames that wait in each direction of an exchange. -/
  exchangeChannelCapacity : Nat := 16
  /-- Pushes parked for an unreachable peer. -/
  retryBufferCapacity : Nat := 32
  /-- The relative size change up to which a placement is kept. -/
  sizeChangeThreshold : Float := 0.25
  /-- Milliseconds that a node stays marked unreachable. -/
  unreachableRecheck : Nat := 5000
  /-- Addresses to try for joining. -/
  staticPeers : List String := []
  /-- The file for checkpoints; none are kept without it. -/
  snapshotPath : Option String := none
  /-- Milliseconds between checkpoints. -/
  snapshotInterval : Nat := 10000

instance : Inhabited NodeConfig := ⟨{}⟩

/-- One setting of a configuration that is built step by step. -/
inductive Setting where
  | nodeId (id : NodeId)
  | address (address : String)
  | shardCount (count : Nat)
  | replicaCount (count : Nat)
  | propagationBudget (budget : Nat)
  | maxRerouteHops (hops : Nat)
  | awaitPropagation (enabled : Bool)
  | antiEntropyInterval (ms : Nat)
  | exchangeBatchSize (size : Nat)
  | retryBufferCapacity (capacity : Nat)
  | sizeChangeThreshold (threshold : Float)
  | unreachableRecheck (ms : Nat)
  | staticPeer (address : String)
  | snapshotPath (path : String)
  | snapshotInterval (ms : Nat)

namespace Setting

/-- The setting of a name and a value. -/
def ofNamed? (name : String) (value : Json) : Option Setting :=
  match name with
  | "node_id" => value.asText.map nodeId
  | "address" => value.asText.map address
  | "shard_count" => (value.asNat word16).map shardCount
  | "replica_count" => (value.asNat word32).map replicaCount
  | "propagation_budget" => (value.asNat word32).map propagationBudget
  | "max_reroute_hops" => (value.asNat word32).map maxRerouteHops
  | "await_propagation" => value.asBool.map awaitPropagation
  | "anti_entropy_interval" => (value.asNat word64).map antiEntropyInterval
  | "exchange_batch_size" => (value.asNat word64).map exchangeBatchSize
  | "retry_buffer_capacity" => (value.asNat word64).map retryBufferCapacity
  | "size_change_threshold" => value.asFloat.map sizeChangeThreshold
  | "unreachable_recheck" => (value.asNat word64).map unreachableRecheck
  | "static_peer" => value.asText.map staticPeer
  | "snapshot_path" => value.asText.map snapshotPath
  | "snapshot_interval" => (value.asNat word64).map snapshotInterval
  | _ => none

end Setting

namespace NodeConfig

/-- A rule that a configuration keeps, and what is said of one that breaks it. -/
structure Rule where
  broken : NodeConfig → Bool
  complaint : String

/-- The rules in the order in which they are checked. -/
def rules : List Rule :=
  [⟨fun c => Text.isBlank c.address, "address must not be empty"⟩,
    ⟨fun c => c.nodeId.any Text.isBlank, "node_id must not be empty"⟩,
    ⟨fun c => c.defaultShardCount = 0, "default_shard_count must be at least 1"⟩,
    ⟨fun c => c.defaultReplicaCount = 0, "default_replica_count must be at least 1"⟩,
    ⟨fun c => c.antiEntropyInterval = 0 || c.snapshotInterval = 0,
      "anti_entropy_interval_ms and snapshot_interval_ms must be at least 1"⟩,
    ⟨fun c => c.maxRerouteHops = 0, "max_reroute_hops must be at least 1"⟩,
    ⟨fun c => c.exchangeBatchSize = 0 || c.exchangeChannelCapacity = 0,
      "exchange batch size and channel capacity must be at least 1"⟩,
    ⟨fun c => !c.sizeChangeThreshold.isFinite || c.sizeChangeThreshold < 0,
      "size_change_threshold must be a finite, non-negative number"⟩]

def validate (c : NodeConfig) : Except ClusterError Unit :=
  match rules.find? fun rule => rule.broken c with
  | some rule => .error (.config rule.complaint)
  | none => .ok ()

def set (c : NodeConfig) : Setting → NodeConfig
  | .nodeId id => { c with nodeId := some id }
  | .address address => { c with address }
  | .shardCount count => { c with defaultShardCount := count }
  | .replicaCount count => { c with defaultReplicaCount := count }
  | .propagationBudget budget => { c with propagationBudget := budget }
  | .maxRerouteHops hops => { c with maxRerouteHops := hops }
  | .awaitPropagation enabled => { c with awaitPropagation := enabled }
  | .antiEntropyInterval ms => { c with antiEntropyInterval := ms }
  | .exchangeBatchSize size => { c with exchangeBatchSize := size }
  | .retryBufferCapacity capacity => { c with retryBufferCapacity := capacity }
  | .sizeChangeThreshold threshold => { c with sizeChangeThreshold := threshold }
  | .unreachableRecheck ms => { c with unreachableRecheck := ms }
  | .staticPeer address => { c with staticPeers := c.staticPeers ++ [address] }
  | .snapshotPath path => { c with snapshotPath := some path }
  | .snapshotInterval ms => { c with snapshotInterval := ms }

/-- The defaults with the settings made on them one after the other. -/
def build (settings : List Setting) : Except ClusterError NodeConfig := do
  let c := settings.foldl set {}
  c.validate
  return c

/-- The fields of a configuration document, each of which may be left out. -/
def fieldNames : List String :=
  ["node_id", "address", "default_shard_count", "default_replica_count", "propagation_budget",
    "max_reroute_hops", "await_propagation", "anti_entropy_interval_ms", "exchange_batch_size",
    "exchange_channel_capacity", "retry_buffer_capacity", "size_change_threshold",
    "unreachable_recheck_ms", "static_peers", "snapshot_path", "snapshot_interval_ms"]

def ofJson? (j : Json) : Option NodeConfig := do
  let d : NodeConfig := {}
  let [nodeId, address, shards, replicas, budget, hops, awaits, antiEntropy, batch, channel, retry,
    threshold, recheck, peers, path, snapshots] ← j.record fieldNames | none
  return {
    nodeId := ← nodeId.defaulted d.nodeId (Json.asOption Json.asText)
    address := ← address.defaulted d.address Json.asText
    defaultShardCount := ← shards.defaulted d.defaultShardCount (Json.asNat word16)
    defaultReplicaCount := ← replicas.defaulted d.defaultReplicaCount (Json.asNat word32)
    propagationBudget := ← budget.defaulted d.propagationBudget (Json.asNat word32)
    maxRerouteHops := ← hops.defaulted d.maxRerouteHops (Json.asNat word32)
    awaitPropagation := ← awaits.defaulted d.awaitPropagation Json.asBool
    antiEntropyInterval := ← antiEntropy.defaulted d.antiEntropyInterval (Json.asNat word64)
    exchangeBatchSize := ← batch.defaulted d.exchangeBatchSize (Json.asNat word64)
    exchangeChannelCapacity := ← channel.defaulted d.exchangeChannelCapacity (Json.asNat word64)
    retryBufferCapacity := ← retry.defaulted d.retryBufferCapacity (Json.asNat word64)
    sizeChangeThreshold := ← threshold.defaulted d.sizeChangeThreshold Json.asFloat
    unreachableRecheck := ← recheck.defaulted d.unreachableRecheck (Json.asNat word64)
    staticPeers := ← peers.defaulted d.staticPeers (Json.asList Json.asText)
    snapshotPath := ← path.defaulted d.snapshotPath (Json.asOption Json.asText)
    snapshotInterval := ← snapshots.defaulted d.snapshotInterval (Json.asNat word64) }

/-- The configuration that a text holds, if it keeps the rules. -/
def ofText (text : String) : Except ClusterError NodeConfig := do
  match (Json.read? text).bind ofJson? with
  | none => throw .unreadableConfig
  | some c =>
    c.validate
    return c

/-- The context of an operation that enters at a node with this configuration. -/
def operation (c : NodeConfig) (traceId : String) : OperationContext :=
  .fresh traceId c.propagationBudget

end NodeConfig

end DeltaRing
