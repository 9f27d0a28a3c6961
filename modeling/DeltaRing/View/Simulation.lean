import DeltaRing.Simulation.Cluster
import DeltaRing.Simulation.Switchboard
import DeltaRing.View.Cluster

/-!
What a reader sees of simulated runs.
-/

namespace DeltaRing

def Subject.display : Subject → String
  | replica r => r.display
  | metadata k => k.name

namespace Simulation

/-- What a cluster has sent, and how it stands. -/
def Cluster.summary {S D T : Type} [CausalTimestamp T D] [DeltaCrdt S D T] [DecidableEq T]
    (c : Cluster S D T) : Json := .object
  [field "digests" c.stats.digests, field "batches" c.stats.batches,
    field "deltas" c.stats.deltas, field "lost" c.network.lost,
    field "in_flight" c.network.inFlight.length, field "idle" c.network.isEmpty,
    field "len" c.replicas.length, field "empty" c.replicas.isEmpty,
    field "converged" c.isConverged]

def CallKind.method : CallKind → String
  | push (.replica _) => "merge"
  | push (.metadata _) => "merge_metadata"
  | reroute _ => "reroute"

def CallKind.subject : CallKind → Subject
  | push subject => subject
  | reroute replica => .replica replica

instance : Shown Call where
  shown c := .object
    [field "to" c.address, field "method" c.kind.method, field "target" c.kind.subject.display,
      field "payload" c.payload, field "budget" c.ctx.budget, field "hops" c.ctx.hops,
      field "origin" c.ctx.origin, field "cancelled" c.ctx.cancelled]

end Simulation

end DeltaRing
