import DeltaRing.Causal.Dot
import DeltaRing.Collections.Total
import DeltaRing.Lattice

/-!
Causal contexts: which dots a replica has merged.

A context keeps for every actor the frontier up to which it has seen all dots, and a cloud of
dots beyond it that arrived out of order, so the gaps left by lost messages stay visible. It
is kept compact: a dot that extends its actor's frontier moves into it, together with the dots of
the cloud that then continue it.
-/

namespace DeltaRing

structure CausalContext where
  frontier : SortedMap Actor Nat
  cloud : SortedSet Dot
deriving DecidableEq

namespace CausalContext

def empty : CausalContext := ⟨.empty, .empty⟩

instance : Inhabited CausalContext := ⟨empty⟩

/-- The greatest counter up to which every dot of the actor has been seen. -/
def frontierOf (c : CausalContext) (actor : Actor) : Nat := c.frontier.getD actor 0

def contains (c : CausalContext) (d : Dot) : Bool :=
  d.counter ≤ c.frontierOf d.actor || c.cloud.contains d

/-- The counters of an actor's dots in the cloud, in increasing order. -/
def cloudOf (c : CausalContext) (actor : Actor) : List Nat :=
  (c.cloud.toList.filter fun d => d.actor = actor).map Dot.counter

/-- How far the counters in the list, taken in order, extend a frontier. -/
def extend (frontier : Nat) (counters : List Nat) : Nat :=
  counters.foldl (fun n c => if c = n + 1 then c else n) frontier

/-- Moves an actor's frontier over the dots of the cloud that continue it, and forgets the dots
of the cloud that the frontier covers. -/
def compact (c : CausalContext) (actor : Actor) : CausalContext :=
  let reached := extend (c.frontierOf actor) (c.cloudOf actor)
  { frontier := if 0 < reached then c.frontier.insert actor reached else c.frontier
    cloud := c.cloud.filter fun d => !(d.actor = actor && d.counter ≤ reached) }

/-- Takes in a dot; says whether it was absent. -/
def record (c : CausalContext) (d : Dot) : CausalContext × Bool :=
  if c.contains d then (c, false)
  else if d.counter = c.frontierOf d.actor + 1 then
    ({ c with frontier := c.frontier.insert d.actor d.counter }.compact d.actor, true)
  else ({ c with cloud := c.cloud.insert d }, true)

/-- The context with one more dot. -/
def insert (c : CausalContext) (d : Dot) : CausalContext := (c.record d).1

def insertAll (c : CausalContext) (ds : List Dot) : CausalContext := ds.foldl insert c

/-- The dot of the actor's next mutation: beyond every dot of the actor seen so far. -/
def nextDot (c : CausalContext) (actor : Actor) : Dot :=
  ⟨actor, max (c.frontierOf actor) ((c.cloudOf actor).foldl max 0) + 1⟩

/-- The dot of the next mutation where counters are words: past the last one they start over. -/
def nextWordDot (c : CausalContext) (actor : Actor) : Dot :=
  ⟨actor, (c.nextDot actor).counter % word64⟩

/-- The actors that the context has anything of. -/
def actors (c : CausalContext) : SortedSet Actor :=
  SortedSet.ofList (c.frontier.keys ++ c.cloud.toList.map Dot.actor)

def merge (c other : CausalContext) : CausalContext :=
  let frontier := other.frontier.entries.foldl
    (fun m (actor, n) => m.alter actor fun mine => max (mine.getD 0) n) c.frontier
  let union : CausalContext := ⟨frontier, c.cloud.union other.cloud⟩
  union.actors.toList.foldl compact union

instance : Lattice CausalContext := ⟨empty, merge⟩

/-- How many dots the context stands for. -/
def dotCount (c : CausalContext) : Nat := total c.frontier.values + c.cloud.size

def isEmpty (c : CausalContext) : Bool := c.frontier.isEmpty && c.cloud.isEmpty

instance : Wire CausalContext where
  toJson c := .object [("frontier", toJson c.frontier), ("cloud", toJson c.cloud)]
  ofJson? j := do
    let [frontier, cloud] ← j.record ["frontier", "cloud"] | none
    return ⟨← frontier.required ofJson?, ← cloud.required ofJson?⟩

end CausalContext

end DeltaRing
