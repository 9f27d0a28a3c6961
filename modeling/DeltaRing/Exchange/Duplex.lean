import DeltaRing.Exchange.Half

/-!
Both sides of an exchange and the bounded queues between them.

The sides may keep replicas of different types; then they will not understand each other.
-/

namespace DeltaRing.Exchange

inductive Side where
  | left
  | right
deriving DecidableEq

/-- The sides and the frames under way to each of them. -/
structure Duplex (S T S' T' : Type) where
  left : Half S T
  right : Half S' T'
  toLeft : List Frame
  toRight : List Frame
  capacity : Nat

/-- How many frames a queue can have room for. -/
def maxCapacity : Nat := 0x1fffffffffffffff

def checkCapacity (capacity : Nat) : Except ClusterError Unit :=
  if maxCapacity < capacity then .error .queueTooLarge else .ok ()

namespace Duplex

variable {S D T S' D' T' : Type}

/-- Two sides at their start; a queue has room for one frame at least. -/
def connect (left : Half S T) (right : Half S' T') (capacity : Nat) : Duplex S T S' T' :=
  ⟨left, right, [], [], max capacity 1⟩

variable [CausalTimestamp T D] [DeltaCrdt S D T] [Wire D] [Wire T]
  [CausalTimestamp T' D'] [DeltaCrdt S' D' T'] [Wire D'] [Wire T']

/-- The exchange after a side's move, if the move is possible. -/
def move? (x : Duplex S T S' T') (side : Side) (m : Move) : Option (Duplex S T S' T') :=
  match side with
  | .left => do
    let (left, ch) ←
      x.left.move? ⟨x.toLeft, x.toRight, x.capacity, x.right.isSending, x.right.isListening⟩ m
    return { x with left, toLeft := ch.inbox, toRight := ch.outbox }
  | .right => do
    let (right, ch) ←
      x.right.move? ⟨x.toRight, x.toLeft, x.capacity, x.left.isSending, x.left.isListening⟩ m
    return { x with right, toRight := ch.inbox, toLeft := ch.outbox }

/-- All moves of both sides. -/
def moves : List (Side × Move) :=
  [(.left, .prepare), (.left, .send), (.left, .receive),
    (.right, .prepare), (.right, .send), (.right, .receive)]

/-- At most `fuel` moves, always the first that is possible. -/
def runWithin : Nat → Duplex S T S' T' → Duplex S T S' T'
  | 0, x => x
  | fuel + 1, x =>
    match moves.findSome? fun (side, m) => x.move? side m with
    | none => x
    | some x => runWithin fuel x

/-- More moves than the sides can take: every delta that either of them holds travels at most once
in each direction, and a frame takes three moves. -/
def moveBound (x : Duplex S T S' T') : Nat :=
  6 * ((deltasSince x.left.state none).length + (deltasSince x.right.state none).length + 3)

/-- Runs an exchange to its end. -/
def run (x : Duplex S T S' T') : Duplex S T S' T' := x.runWithin x.moveBound

end Duplex

/-- What came of a side that has run to its end. -/
def Half.outcome {S T : Type} (h : Half S T) : Except ClusterError Report :=
  h.outcome?.getD (.error (.violation "the exchange has not ended"))

end DeltaRing.Exchange
