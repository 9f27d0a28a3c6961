import DeltaRing.Station

/-!
Forwarding an operation from a node that may not write its shard to one that may.

Nodes may disagree on who that is. An operation that would stay where it is, go back to where it
came from, or has been forwarded too often is refused, so that it cannot wander for ever.
-/

namespace DeltaRing.Station

variable {σ : Type} (st : Station σ)

/-- The write replica that an operation goes to. -/
def target (replica : ReplicaId) (ctx : OperationContext) : Action σ NodeInfo := do
  let refuse (failure : RoutingFailure) : Action σ NodeInfo := throw (.routing replica failure)
  if st.maxHops ≤ ctx.hops then refuse (.hopLimit ctx.hops)
  else
    let s ← get
    let candidates := ((st.distributor s).writeReplicas replica).filter
      fun n => !st.isUnreachable s n.id
    match st.rerouting st.here candidates with
    | [] => refuse .noCandidates
    | target :: _ =>
      if target.id = st.here.id then refuse .targetIsSelf
      else if ctx.origin = some target.id then refuse .targetIsOrigin
      else return target

/-- Forwards an encoded operation by a call of the chosen peer; the answer is its encoded output. -/
def reroute (call : NodeInfo → ReplicaId → Payload → OperationContext → Action σ Payload)
    (replica : ReplicaId) (operation : Payload) (ctx : OperationContext) : Action σ Payload := do
  ctx.ensureActive
  let target ← st.target replica ctx
  st.connect target
  match ← Action.attempt (call target replica operation (ctx.rerouted st.here.id)) with
  | .ok output =>
    st.reportSuccess target
    return output
  | .error e =>
    if e.isUnreachable then st.reportUnreachable target
    throw e

end DeltaRing.Station
