/-!
A simulated network that loses, doubles and reorders messages.

What happens to a message is its fate, and the fates of all messages are given beforehand, as a
function of their number. So a run is determined, and a statement for every network is a
statement for every such function. Fates can be drawn at given rates from a seed.
-/

namespace DeltaRing.Simulation

/-- What the network does to one message. -/
structure Fate where
  lost : Bool
  /-- A copy is put behind the messages in flight first. -/
  doubled : Bool
  /-- The message jumps the queue to this place, counted round and round the messages in flight. -/
  jump : Option Nat
deriving DecidableEq

structure Network (M : Type) where
  /-- The messages in flight, the next to be received first. -/
  inFlight : List M
  lost : Nat
  /-- How many messages have been handed over so far. -/
  sent : Nat
  fate : Nat → Fate

namespace Network

variable {M : Type}

def quiet (fate : Nat → Fate) : Network M := ⟨[], 0, 0, fate⟩

/-- Puts a message at a place, if there is anything to jump over, and at the back otherwise. -/
def place (m : M) (jump : Option Nat) (queue : List M) : List M :=
  match jump with
  | none => queue ++ [m]
  | some n => queue.take (n % queue.length) ++ m :: queue.drop (n % queue.length)

def send (net : Network M) (m : M) : Network M :=
  let fate := net.fate net.sent
  if fate.lost then { net with lost := net.lost + 1, sent := net.sent + 1 }
  else
    let queue := if fate.doubled then net.inFlight ++ [m] else net.inFlight
    { net with inFlight := place m fate.jump queue, sent := net.sent + 1 }

def sendAll (net : Network M) (ms : List M) : Network M := ms.foldl send net

def receive? (net : Network M) : Option (M × Network M) :=
  match net.inFlight with
  | [] => none
  | m :: rest => some (m, { net with inFlight := rest })

def isEmpty (net : Network M) : Bool := net.inFlight.isEmpty

theorem countP_place {m : M} {jump : Option Nat} {queue : List M} (p : M → Bool) :
    (place m jump queue).countP p = queue.countP p + (if p m then 1 else 0) := by
  cases jump with
  | none => simp [place, List.countP_append, List.countP_singleton]
  | some n =>
    simp only [place, List.countP_append, List.countP_cons]
    conv => rhs; rw [← List.take_append_drop (n % queue.length) queue, List.countP_append]
    omega

/-- Sending adds nothing but copies of the message. -/
theorem countP_send {net : Network M} {m : M} {p : M → Bool} (h : p m = false) :
    (net.send m).inFlight.countP p = net.inFlight.countP p := by
  simp only [send]
  split
  · rfl
  · rw [countP_place]
    split <;> simp [List.countP_append, h]

theorem countP_sendAll {p : M → Bool} {ms : List M} :
    ∀ {net : Network M}, (∀ m ∈ ms, p m = false) →
      (net.sendAll ms).inFlight.countP p = net.inFlight.countP p := by
  induction ms with
  | nil => intros; rfl
  | cons m ms ih =>
    intro net h
    rw [sendAll, List.foldl_cons, ← sendAll, ih fun m hm => h m (List.mem_cons_of_mem _ hm),
      countP_send (h m List.mem_cons_self)]

end Network

/-! ### Fates drawn at random -/

/-- How often messages are lost, doubled and reordered, and the seed of the draws. -/
structure Rates where
  loss : Float
  doubling : Float
  reordering : Float
  seed : Nat

namespace Rates

/-- A network without faults. -/
def none : Rates := ⟨0, 0, 0, 12345⟩

/-- The `n`th draw from a seed: 64 well mixed bits. -/
def draw (seed n : Nat) : UInt64 :=
  let z := seed.toUInt64 + (n + 1).toUInt64 * 0x9e3779b97f4a7c15
  let z := (z ^^^ (z >>> 30)) * 0xbf58476d1ce4e5b9
  let z := (z ^^^ (z >>> 27)) * 0x94d049bb133111eb
  z ^^^ (z >>> 31)

/-- An event of the given rate happens: always from rate 1 on, never at rate 0 or below. -/
def happens (rate : Float) (draw : UInt64) : Bool :=
  (draw >>> 11).toFloat / 9007199254740992 < rate

def fate (r : Rates) (n : Nat) : Fate where
  lost := happens r.loss (draw r.seed (4 * n))
  doubled := happens r.doubling (draw r.seed (4 * n + 1))
  jump :=
    if happens r.reordering (draw r.seed (4 * n + 2)) then some (draw r.seed (4 * n + 3)).toNat
    else .none

end Rates

end DeltaRing.Simulation
