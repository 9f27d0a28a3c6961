import DeltaRing.Identity

/-!
Choosing which of the candidate nodes to contact.

Every node computes the same ring from the same view: the candidates in the order of their ids,
each id once. The successor on that ring needs no coordination, and following successors visits
every node.
-/

namespace DeltaRing

/-- Picks targets among candidates, as seen from the local node. -/
abbrev Strategy := NodeInfo → List NodeInfo → List NodeInfo

namespace Selection

/-- Leaves out every node that has the id of the one before it, `last` standing before all. -/
def distinctAfter (last : NodeId) : List NodeInfo → List NodeInfo
  | [] => []
  | n :: rest => if n.id = last then distinctAfter last rest else n :: distinctAfter n.id rest

/-- Keeps the first of neighbours with one id. -/
def distinct : List NodeInfo → List NodeInfo
  | [] => []
  | n :: rest => n :: distinctAfter n.id rest

/-- In the order of ids, nodes with one id as they come. -/
def sortById (ns : List NodeInfo) : List NodeInfo :=
  ns.mergeSort fun a b => (compare a.id b.id).isLE

/-- In the order of ids, then of addresses. -/
def sort (ns : List NodeInfo) : List NodeInfo := ns.mergeSort fun a b => (compare a b).isLE

def others (here : NodeInfo) (candidates : List NodeInfo) : List NodeInfo :=
  candidates.filter fun n => n.id ≠ here.id

/-- The next node after the local one on the ring of candidates. -/
def ringSuccessor : Strategy := fun here candidates =>
  let ring := distinct (sortById (others here candidates))
  ((ring.find? fun n => compare here.id n.id = .lt) <|> ring.head?).toList

/-- Every candidate except the local node. -/
def allNodes : Strategy := fun here candidates => distinct (sort (others here candidates))

/-- The first so many of the other candidates after a rearrangement, which chance gives. -/
def randomNodes (count : Nat) (rearrange : List NodeInfo → List NodeInfo) : Strategy :=
  fun here candidates => (rearrange (allNodes here candidates)).take count

/-- The local node, whatever the candidates. -/
def localNode : Strategy := fun here _ => [here]

/-- All candidates as they come. -/
def verbatim : Strategy := fun _ candidates => candidates

/-- The strategy of a name. -/
def ofName? : String → Option Strategy
  | "all" => some allNodes
  | "ring" => some ringSuccessor
  | "local" => some localNode
  | "verbatim" => some verbatim
  | _ => none

end Selection

end DeltaRing
