import DeltaRing.Identity

/-!
Marks on nodes that could not be reached.

A mark makes selection and pushing skip the node. It goes with the next success, and it lapses
after the recheck interval, so that the node is tried again. Subscribers are told when a node is
newly marked and when a mark is cleared by a success; a lapse is not told. A subscriber that falls
behind loses its oldest events and learns how many.
-/

namespace DeltaRing

inductive NodeEvent where
  | unreachable (node : NodeInfo)
  | recovered (node : NodeInfo)
deriving DecidableEq

def NodeEvent.display : NodeEvent → String
  | unreachable node => "unreachable " ++ node.display
  | recovered node => "recovered " ++ node.display

/-- The events that wait for a subscriber, and how many it has lost. -/
structure EventQueue where
  waiting : List NodeEvent
  missed : Nat
deriving DecidableEq

namespace EventQueue

def empty : EventQueue := ⟨[], 0⟩

/-- The most events that wait for a subscriber. -/
def capacity : Nat := 64

def push (q : EventQueue) (e : NodeEvent) : EventQueue :=
  if q.waiting.length < capacity then { q with waiting := q.waiting ++ [e] }
  else ⟨q.waiting.tail ++ [e], q.missed + 1⟩

end EventQueue

structure FailureDetector where
  /-- How long a mark holds, in milliseconds. -/
  recheck : Nat
  /-- The marked nodes, and when they were last found unreachable. -/
  marks : SortedMap NodeId (NodeInfo × Nat)
  subscribers : List EventQueue
deriving DecidableEq

namespace FailureDetector

def ofRecheck (recheck : Nat) : FailureDetector := ⟨recheck, .empty, []⟩

def subscribe (f : FailureDetector) : FailureDetector :=
  { f with subscribers := f.subscribers ++ [.empty] }

def announce (f : FailureDetector) (e : NodeEvent) : FailureDetector :=
  { f with subscribers := f.subscribers.map fun q => q.push e }

/-- Marks a node, or renews its mark. -/
def reportUnreachable (f : FailureDetector) (now : Nat) (node : NodeInfo) : FailureDetector :=
  let marked := { f with marks := f.marks.insert node.id (node, now) }
  if f.marks.contains node.id then marked else marked.announce (.unreachable node)

/-- Clears the mark of a node, if there is one. -/
def reportSuccess (f : FailureDetector) (node : NodeInfo) : FailureDetector :=
  if f.marks.contains node.id then
    { f with marks := f.marks.erase node.id }.announce (.recovered node)
  else f

/-- The node is marked, and the mark has not lapsed. -/
def isUnreachable (f : FailureDetector) (now : Nat) (id : NodeId) : Bool :=
  (f.marks.get? id).any fun (_, since) => now - since < f.recheck

/-- The nodes whose marks hold, in the order of their ids. -/
def unreachableNodes (f : FailureDetector) (now : Nat) : List NodeInfo :=
  f.marks.values.filterMap fun (node, since) => if now - since < f.recheck then some node else none

/-- Hands all waiting events to the subscribers. -/
def takeEvents (f : FailureDetector) : FailureDetector × List EventQueue :=
  ({ f with subscribers := f.subscribers.map fun _ => .empty }, f.subscribers)

end FailureDetector

end DeltaRing
