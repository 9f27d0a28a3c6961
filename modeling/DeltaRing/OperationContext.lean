import DeltaRing.Error

/-!
What travels with every call that an operation causes.

A context names the node the call comes from, the fan-out budget left, the trace and the reroutes
taken, and knows whether the operation has been cancelled. It is made where an operation enters
and never stored.
-/

namespace DeltaRing

structure OperationContext where
  /-- The node that the data came from, left out of further pushes. -/
  origin : Option NodeId
  /-- How many more hops a push may go. -/
  budget : Nat
  traceId : String
  /-- Reroutes taken so far. -/
  hops : Nat
  cancelled : Bool
deriving DecidableEq

namespace OperationContext

/-- The context of an operation that enters the cluster. -/
def fresh (traceId : String) (budget : Nat) : OperationContext := ⟨none, budget, traceId, 0, false⟩

/-- The context of an exchange: what it merges is not pushed on. -/
def forSync (traceId : String) (cancelled : Bool) : OperationContext :=
  { fresh traceId 0 with cancelled }

/-- The context of a push from a node: one hop less to go. -/
def forwarded (c : OperationContext) (sender : NodeId) : OperationContext :=
  { c with origin := some sender, budget := c.budget - 1 }

/-- The context of a reroute from a node: one more reroute taken, the budget untouched. -/
def rerouted (c : OperationContext) (sender : NodeId) : OperationContext :=
  { c with origin := some sender, hops := min (c.hops + 1) (word32 - 1) }

/-- The same context, out of reach of the operation's cancellation. -/
def detached (c : OperationContext) : OperationContext := { c with cancelled := false }

def ensureActive (c : OperationContext) : Except ClusterError Unit :=
  if c.cancelled then .error .cancelled else .ok ()

/-- Cancellation does not travel: a context read from text is active. -/
instance : Wire OperationContext where
  toJson c := .object
    [("origin", toJson c.origin), ("await_propagation_to_n_nodes", toJson c.budget),
      ("trace_id", toJson c.traceId), ("hops", toJson c.hops)]
  ofJson? j := do
    let [origin, budget, traceId, hops] ←
      j.record ["origin", "await_propagation_to_n_nodes", "trace_id", "hops"] | none
    return ⟨← origin.optional ofJson?, ← budget.required (Json.asNat word32),
      ← traceId.required ofJson?, ← hops.defaulted 0 (Json.asNat word32), false⟩

end OperationContext

end DeltaRing
