import DeltaRing.Causal.Context

/-!
The contract of replicated values.

A replica changes its value locally and hands out deltas; every other replica merges the deltas
it receives, in any order and as often as they come. A causal timestamp says what a replica has
merged, and from a timestamp a replica can list the deltas that its holder lacks. The list is
walked in bounded batches: a cursor that observes a batch stands behind it.
-/

namespace DeltaRing

/-- Whether a merge changed the replica. -/
inductive MergeResult where
  | updated
  | unchanged
deriving DecidableEq

namespace MergeResult

def isUpdated : MergeResult → Bool
  | .updated => true
  | .unchanged => false

/-- Updated as soon as one side is. -/
def or : MergeResult → MergeResult → MergeResult
  | .unchanged, r => r
  | .updated, _ => .updated

instance : Wire MergeResult where
  toJson
    | .updated => .text "StateUpdated"
    | .unchanged => .text "StateNotChanged"
  ofJson? j :=
    match j.unitVariant with
    | some "StateUpdated" => some .updated
    | some "StateNotChanged" => some .unchanged
    | _ => none

end MergeResult

/-- Timestamps that say which deltas `D` a replica has merged. -/
class CausalTimestamp (T D : Type) extends Lattice T where
  /-- The delta is merged in a replica with this timestamp. -/
  reflects : T → D → Bool
  /-- The timestamp after merging the delta. -/
  observe : T → D → T

export CausalTimestamp (reflects observe)

/-- A replica state `S` whose changes travel as deltas `D` and are summed up by timestamps `T`. -/
class DeltaCrdt (S : Type) (D T : outParam Type) where
  initial : S
  merge : S → D → S × MergeResult
  /-- Everything merged so far. -/
  timestamp : S → T
  /-- The deltas that the timestamp does not reflect; without a timestamp, the full history. -/
  deltasSince : S → Option T → List D
  /-- Rough storage footprint, which placement goes by. -/
  sizeEstimate : S → Nat

export DeltaCrdt (initial merge timestamp deltasSince sizeEstimate)

/-- Operations `O` on a replica state. Each concerns one key in `K` and answers with an output
`R`. Operations name no actor: whoever applies one does it as itself. -/
class Operable (S : Type) (D O R K : outParam Type) where
  apply : S → Actor → O → S × R × List D
  /-- The same where the counters of dots are words. -/
  applyInWords : S → Actor → O → S × R × List D
  operationKey : O → K

section

variable {S D T : Type} [CausalTimestamp T D] [DeltaCrdt S D T]

def mergeAll (s : S) (ds : List D) : S × MergeResult :=
  ds.foldl (fun (s, r) d => let (s, r') := merge s d; (s, r.or r')) (s, .unchanged)

def observeAll (t : T) (ds : List D) : T := ds.foldl observe t

/-- The next deltas that the cursor has not seen, at most `limit` but at least one if there are
any, and the cursor behind them. -/
def nextBatch (s : S) (cursor : T) (limit : Nat) : List D × T :=
  let batch := (deltasSince s (some cursor)).take (max limit 1)
  (batch, observeAll cursor batch)

/-- All batches from the cursor on; the fuel bounds their number. -/
def batchesWithin (s : S) (limit : Nat) : Nat → T → List (List D)
  | 0, _ => []
  | fuel + 1, cursor =>
    match nextBatch s cursor limit with
    | ([], _) => []
    | (batch, cursor) => batch :: batchesWithin s limit fuel cursor

/-- All batches from the cursor on. Every batch brings the cursor past at least one delta. -/
def batches (s : S) (cursor : T) (limit : Nat) : List (List D) :=
  batchesWithin s limit (deltasSince s (some cursor)).length cursor

end

end DeltaRing
