import DeltaRing.Node
import DeltaRing.Snapshot.Files

/-!
Nodes of one cluster, the network between them, and the world around: clocks and disks.

A node serves at its address until it is taken away. An address that is cut off neither sends nor
receives. Everything that one step of the world sets off has happened before the next begins, so
the whole is a state and a step is an action on it.
-/

namespace DeltaRing

/-- The number of a node's start, by which the cluster knows it. -/
abbrev Seat := Nat

/-- What a node does at intervals. -/
inductive Task where
  | syncRound
  | saveSnapshot
deriving DecidableEq

/-- A task that is due at a time of the timer and then again and again. -/
structure Ticker where
  seat : Seat
  task : Task
  /-- Milliseconds from one time to the next. -/
  period : Nat
  due : Nat
deriving DecidableEq

/-- The ticker after it has been served at a time. One that is served late goes on from then. -/
def Ticker.next (t : Ticker) (now : Nat) : Ticker :=
  { t with due := if t.due + 5 < now then now + t.period else t.due + t.period }

structure Cluster where
  /-- The running nodes in the order of their starts. -/
  nodes : SortedMap Seat Node
  /-- How many nodes have been started. -/
  started : Nat
  /-- Who serves at which address. -/
  services : SortedMap String Seat
  /-- The addresses that are cut off. -/
  cut : SortedSet String
  /-- The calls attempted to each address. -/
  calls : SortedMap String Nat
  /-- Unix time in milliseconds. -/
  clock : Int
  /-- Milliseconds on the timer, which runs on its own. -/
  timer : Nat
  /-- The checkpoint file of every node that has one; files outlast their nodes. -/
  disks : SortedMap NodeId Snapshot.Files
  tickers : List Ticker

namespace Cluster

def empty (clock : Int) : Cluster := ⟨.empty, 0, .empty, .empty, .empty, clock, 0, .empty, []⟩

/-- The node of that id that was started first. -/
def seatOf? (c : Cluster) (id : NodeId) : Option Seat :=
  (c.nodes.entries.find? fun (_, n) => n.info.id = id).map Prod.fst

/-- Lets a node act on its own. -/
def act {α : Type} (seat : Seat) (a : Action Node α) : Action Cluster α := do
  match (← get).nodes.get? seat with
  | none => throw (.unreachable "" "the node is gone")
  | some n =>
    let (result, n) := a.run n
    modify fun c => { c with nodes := c.nodes.insert seat n }
    match result with
    | .ok a => return a
    | .error e => throw e

def isReachable (c : Cluster) (address : String) : Bool := !c.cut.contains address

/-- How often calls to an address have been attempted. -/
def callsTo (c : Cluster) (address : String) : Nat := c.calls.getD address 0

/-- Counts a call from one address to another and finds the node that serves there. A caller that
has been cancelled never gets that far. -/
def connect (caller callee : String) (ctx : OperationContext) : Action Cluster Seat := do
  ctx.ensureActive
  modify fun c => { c with calls := c.calls.alter callee fun n => n.getD 0 + 1 }
  let c ← get
  let service := c.services.get? callee
  let named := ((service.bind c.nodes.get?).map fun n => n.info.id).getD callee
  if c.isReachable caller && c.isReachable callee then
    match service with
    | some seat => return seat
    | none => throw (.unreachable named "no service at address")
  else throw (.unreachable named s!"{caller} cannot reach {callee}")

end Cluster

end DeltaRing
