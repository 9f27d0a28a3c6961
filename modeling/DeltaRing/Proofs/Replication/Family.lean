import DeltaRing.Proofs.Replication.OrMap
import DeltaRing.Proofs.Replication.OrSet
import DeltaRing.Proofs.Replication.Registry

/-!
The families of replicated values: sets, registries, and maps of any family, to any depth.

Each family gives the types of its states, deltas, timestamps, operations, outputs and keys, and
satisfies the laws of merging and of operations, by induction on how its values are nested.
-/

namespace DeltaRing

inductive Family : Type 1 where
  | orSet (α : Type) [Key α]
  | registry (K V : Type) [Key K]
  | orMap (K : Type) [Key K] (value : Family)

namespace Family

def State : Family → Type
  | orSet α => OrSet α
  | registry K V => LwwRegistry K V
  | orMap K value => OrMap K value.State

def Delta : Family → Type
  | orSet α => OrSetDelta α
  | registry K V => LwwDelta K V
  | orMap K value => OrMapDelta K value.Delta

def Timestamp : Family → Type
  | orSet _ => CausalContext
  | registry K _ => LwwTimestamp K
  | orMap K value => MapTimestamp K value.Timestamp

/-- A key of a map is mutated by operations on its value, which are applied in turn. -/
def Operation : Family → Type
  | orSet α => OrSetOperation α
  | registry K V => LwwOperation K V
  | orMap K value => OrMapOperation K (List value.Operation)

def Output : Family → Type
  | orSet _ => Bool
  | registry _ V => LwwOutcome V
  | orMap _ value => OrMapOutput (List value.Output)

/-- The part of an operation that selects its shard. -/
def KeyType : Family → Type
  | orSet α => α
  | registry K _ => K
  | orMap K _ => K

/-! ### What every family provides -/

instance causalTimestamp : (F : Family) → CausalTimestamp F.Timestamp F.Delta
  | orSet α => inferInstanceAs (CausalTimestamp CausalContext (OrSetDelta α))
  | registry K V => inferInstanceAs (CausalTimestamp (LwwTimestamp K) (LwwDelta K V))
  | orMap K value =>
    have := value.causalTimestamp
    inferInstanceAs (CausalTimestamp (MapTimestamp K value.Timestamp) (OrMapDelta K value.Delta))

instance deltaCrdt : (F : Family) → DeltaCrdt F.State F.Delta F.Timestamp
  | orSet α => inferInstanceAs (DeltaCrdt (OrSet α) _ _)
  | registry K V => inferInstanceAs (DeltaCrdt (LwwRegistry K V) _ _)
  | orMap K value =>
    have := value.deltaCrdt
    inferInstanceAs (DeltaCrdt (OrMap K value.State) _ _)

instance operable : (F : Family) → Operable F.State F.Delta F.Operation F.Output F.KeyType
  | orSet α => inferInstanceAs (Operable (OrSet α) _ _ _ _)
  | registry K V => inferInstanceAs (Operable (LwwRegistry K V) _ _ _ _)
  | orMap K value =>
    let _ := value.operable
    have := Operable.inTurn value.State
    inferInstanceAs (Operable (OrMap K value.State) (OrMapDelta K value.Delta) _ _ K)

instance authored : (F : Family) → Authored F.Delta
  | orSet α => inferInstanceAs (Authored (OrSetDelta α))
  | registry K V => inferInstanceAs (Authored (LwwDelta K V))
  | orMap K value =>
    have := value.authored
    inferInstanceAs (Authored (OrMapDelta K value.Delta))

instance summary : (F : Family) → Summary F.State F.Delta
  | orSet α => inferInstanceAs (Summary (OrSet α) _)
  | registry K V => inferInstanceAs (Summary (LwwRegistry K V) _)
  | orMap K value =>
    have := value.summary
    inferInstanceAs (Summary (OrMap K value.State) _)

instance convergent : (F : Family) → Convergent F.State
  | orSet α => inferInstanceAs (Convergent (OrSet α))
  | registry K V => inferInstanceAs (Convergent (LwwRegistry K V))
  | orMap K value =>
    have := value.convergent
    inferInstanceAs (Convergent (OrMap K value.State))

instance handsOutCoherently : (F : Family) → HandsOutCoherently F.State
  | orSet α => inferInstanceAs (HandsOutCoherently (OrSet α))
  | registry K V => inferInstanceAs (HandsOutCoherently (LwwRegistry K V))
  | orMap K value =>
    have := value.handsOutCoherently
    have := handsOutCoherently_inTurn (S := value.State)
    let _ := Operable.inTurn value.State
    inferInstanceAs (HandsOutCoherently (OrMap K value.State))

end Family

end DeltaRing
