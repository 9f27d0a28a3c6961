import DeltaRing.Delta
import DeltaRing.Error

/-!
A replica as its peers meet it: in encoded timestamps and encoded batches of deltas.

A batch that does not decode as a whole is not merged at all.
-/

namespace DeltaRing.Encoded

variable {S D T : Type} [CausalTimestamp T D] [DeltaCrdt S D T] [Wire D] [Wire T]

def timestampOf (s : S) : Payload := Wire.encode (timestamp s)

/-- The full history in one batch. -/
def history (s : S) : Payload := Wire.encode (deltasSince s none)

/-- Merges an encoded batch. -/
def merge (s : S) (batch : Payload) : Except ClusterError (S × MergeResult) := do
  let ds : List D ← Wire.decode batch
  return mergeAll s ds

/-- Everything that the encoded timestamp reflects has been merged. -/
def covers [DecidableEq T] (s : S) (ts : Payload) : Except ClusterError Bool := do
  let t : T ← Wire.decode ts
  return Lattice.leq t (timestamp s)

/-- The encoded batches that the holder of the encoded timestamp lacks. -/
def batchesSince (s : S) (ts : Payload) (limit : Nat) : Except ClusterError (List Payload) := do
  let t : T ← Wire.decode ts
  return (batches s t limit).map Wire.encode

end DeltaRing.Encoded
