import DeltaRing.Propagation
import DeltaRing.Rerouting

/-!
The sending services of one node over a line with planted faults.

There are no peers at the other end: every call is written down and answered as its address's
fault says. So the services can be looked at for themselves.
-/

namespace DeltaRing.Simulation

/-- What befalls the calls to an address. -/
inductive Fault where
  /-- The peer cannot be reached. -/
  | down
  /-- The peer answers against the protocol. -/
  | broken
  /-- The call is cancelled. -/
  | cancelling
  /-- There is no client for the address, so no call is made. -/
  | noClient
deriving DecidableEq

def Fault.ofName? : String → Option Fault
  | "down" => some down
  | "broken" => some broken
  | "cancelling" => some cancelling
  | "no_client" => some noClient
  | _ => none

inductive CallKind where
  | push (subject : Subject)
  | reroute (replica : ReplicaId)
deriving DecidableEq

/-- A call that was made. -/
structure Call where
  address : String
  kind : CallKind
  payload : Payload
  ctx : OperationContext
deriving DecidableEq

structure Switchboard where
  timer : Nat
  outbox : Outbox
  distributor : Distributor
  /-- The nodes that any view has named. -/
  named : SortedSet NodeId
  faults : SortedMap String Fault
  /-- The calls made so far, the last first. -/
  calls : List Call

namespace Switchboard

/-- A fresh board that has taken no view. -/
def create (distributor : Distributor) (recheck capacity : Nat) : Switchboard :=
  ⟨0, ⟨.ofRecheck recheck, .ofCapacity capacity⟩, distributor, .empty, .empty, []⟩

/-- Takes a new view of the cluster; says whether the plan changed. -/
def takeView (s : Switchboard) (view : ClusterView) : Switchboard × Bool :=
  let (distributor, changed) := s.distributor.update view
  ({ s with distributor, named := s.named.insertAll (view.nodes.map NodeInfo.id) }, changed)

/-- The named nodes that pushes wait for. -/
def awaited (s : Switchboard) : List NodeId :=
  s.named.toList.filter fun id => s.outbox.retry.pendingFor id != 0

/-- The calls made since the last time, in order. -/
def takeCalls (s : Switchboard) : Switchboard × List Call := ({ s with calls := [] }, s.calls.reverse)

/-- Writes a call down and fails as the fault of its address says. -/
def call (c : Call) : Action Switchboard Unit := do
  modify fun s => { s with calls := c :: s.calls }
  match (← get).faults.get? c.address with
  | some .down => throw (.unreachable c.address "down")
  | some .broken => throw (.violation (c.address ++ " is broken"))
  | some .cancelling => throw .cancelled
  | some .noClient | none => return

/-- The node whose services are looked at. A push that reaches its peer changes something there. -/
def station (here : NodeInfo) (propagation rerouting : Strategy) (maxHops : Nat) :
    Station Switchboard where
  here := here
  propagation := propagation
  rerouting := rerouting
  maxHops := maxHops
  now := timer
  distributor := distributor
  outbox := outbox
  setOutbox := fun outbox s => { s with outbox }
  connect := fun peer => do
    if (← get).faults.get? peer.address = some .noClient then
      throw (.unreachable peer.address "no client")
  push := fun peer p => do
    call ⟨peer.address, .push p.subject, p.deltas, p.ctx⟩
    return .updated

/-- Answers a forwarded operation with its echo. -/
def echo (peer : NodeInfo) (replica : ReplicaId) (operation : Payload) (ctx : OperationContext) :
    Action Switchboard Payload := do
  call ⟨peer.address, .reroute replica, operation, ctx⟩
  return "echo:".toUTF8 ++ operation

end Switchboard

end DeltaRing.Simulation
