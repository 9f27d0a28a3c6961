import DeltaRing.Selection

/-!
Placing replicas on the ring of nodes.

Every node computes placement on its own, so it is a pure function of members, sizes and holders.
The replicas are taken by size, the largest first, and each gets a window of consecutive nodes of
the ring. The window's start walks the ring forward, then backward, and so on, so that the
largest replicas do not pile up on the same nodes.
-/

namespace DeltaRing

/-- The nodes that accept writes to a replica, and those that should hold a copy of it. -/
structure Placement where
  write : List NodeInfo
  read : List NodeInfo
deriving DecidableEq

instance : Inhabited Placement := ⟨⟨[], []⟩⟩

/-- The nodes that report stored data of a replica. -/
abbrev Holders := SortedMap ReplicaId (SortedSet NodeId)

abbrev Plan := SortedMap ReplicaId Placement

/-- Places replicas on nodes. -/
abbrev Distribution := List ReplicaInfo → List NodeInfo → Holders → Plan

namespace Placement

/-- The ring of a list of nodes: each id once, in order. -/
def ringOf (nodes : List NodeInfo) : List NodeInfo := Selection.distinct (Selection.sort nodes)

/-- The largest replicas first, replicas of one size by their ids. -/
def order (replicas : List ReplicaInfo) : List ReplicaInfo :=
  replicas.mergeSort fun a b => ((compare b.size a.size).then (compare a.replica b.replica)).isLE

/-- Where the window of the `k`th replica starts on a ring of `n` nodes. -/
def windowStart (n k : Nat) : Nat :=
  let turn := k % (2 * n)
  if turn < n then turn else 2 * n - 1 - turn

/-- `width` consecutive nodes of the ring. -/
def window (ring : List NodeInfo) (start width : Nat) : List NodeInfo :=
  (List.range width).filterMap fun i => ring[(start + i) % ring.length]?

/-- Writes go to a window of the ring, and reads to the nodes of the holders as well. -/
def ofWindow (ring : List NodeInfo) (heldBy : SortedSet NodeId) (window : List NodeInfo) :
    Placement :=
  let write := Selection.sort window
  let keepers := ring.filter fun n => heldBy.contains n.id && !write.any fun w => w.id = n.id
  ⟨write, Selection.sort (write ++ keepers)⟩

/-- The placement of the `k`th replica. -/
def onRing (ring : List NodeInfo) (holders : Holders) (k : Nat) (info : ReplicaInfo) : Placement :=
  let width := min (max info.requestedReplicas 1) ring.length
  ofWindow ring (holders.getD info.replica .empty) (window ring (windowStart ring.length k) width)

/-- Consecutive windows on the ring of nodes, for the replicas in order of size. -/
def ringDistribution : Distribution := fun replicas nodes holders =>
  let ring := ringOf nodes
  .ofList ((order replicas).zipIdx.map fun (info, k) => (info.replica, onRing ring holders k info))

end Placement

end DeltaRing
