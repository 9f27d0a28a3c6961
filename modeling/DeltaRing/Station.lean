import DeltaRing.Delta
import DeltaRing.OperationContext
import DeltaRing.RetryBuffer
import DeltaRing.FailureDetector
import DeltaRing.Distributor

/-!
A node as a sender: what it knows of its peers, what it owes them, and how it reaches them.

The node lies in a world, which may hold its peers or be a bare answering machine. Sending acts
on the world, and whatever a failed action did before it failed stays done.
-/

namespace DeltaRing

/-- Acts on a world and answers or fails. -/
abbrev Action (σ α : Type) := ExceptT ClusterError (StateM σ) α

/-- Carries on with the failure in hand. -/
def Action.attempt {σ α : Type} (a : Action σ α) : Action σ (Except ClusterError α) :=
  ExceptT.lift a.run

/-- What deltas belong to. -/
inductive Subject where
  | replica (id : ReplicaId)
  | metadata (kind : MetadataKind)
deriving DecidableEq

/-- Encoded deltas on their way to a peer. -/
structure Push where
  subject : Subject
  deltas : Payload
  ctx : OperationContext
deriving DecidableEq

/-- The push as it is parked, which the operation's cancellation does not reach. -/
def Push.detached (p : Push) : Push := { p with ctx := p.ctx.detached }

/-- Which peers could not be reached, and the pushes that wait for them. -/
structure Outbox where
  failures : FailureDetector
  retry : RetryBuffer NodeId Push

/-- A node in a world `σ`. -/
structure Station (σ : Type) where
  here : NodeInfo
  /-- Which write replicas a push goes to. -/
  propagation : Strategy
  /-- Which write replica an operation is forwarded to: the first pick. -/
  rerouting : Strategy
  /-- The reroutes after which an operation is refused. -/
  maxHops : Nat
  /-- Milliseconds on the timer. -/
  now : σ → Nat
  distributor : σ → Distributor
  outbox : σ → Outbox
  setOutbox : Outbox → σ → σ
  /-- Gets hold of a client for a peer. -/
  connect : NodeInfo → Action σ Unit
  /-- Calls a peer to merge a push. -/
  push : NodeInfo → Push → Action σ MergeResult

namespace Station

variable {σ : Type} (st : Station σ)

def modifyFailures (f : Nat → FailureDetector → FailureDetector) : StateM σ Unit :=
  modify fun s =>
    let outbox := st.outbox s
    st.setOutbox { outbox with failures := f (st.now s) outbox.failures } s

def modifyRetry (f : RetryBuffer NodeId Push → RetryBuffer NodeId Push) : StateM σ Unit :=
  modify fun s =>
    let outbox := st.outbox s
    st.setOutbox { outbox with retry := f outbox.retry } s

def reportSuccess (peer : NodeInfo) : StateM σ Unit :=
  st.modifyFailures fun _ f => f.reportSuccess peer

def reportUnreachable (peer : NodeInfo) : StateM σ Unit :=
  st.modifyFailures fun now f => f.reportUnreachable now peer

/-- The peer is marked in this world. -/
def isUnreachable (s : σ) (id : NodeId) : Bool := (st.outbox s).failures.isUnreachable (st.now s) id

end Station

end DeltaRing
