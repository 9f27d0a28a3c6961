import DeltaRing.Sha256
import DeltaRing.Wire

/-!
Which shard of an instance a key belongs to.

Every node finds the same shard from the written form of the key alone.
-/

namespace DeltaRing

/-- An instance has one shard at least. -/
def shardsOf (requested : Nat) : Nat := max requested 1

/-- The shard of a key among `shards`: its digest, taken round and round them. -/
def shardFor {K : Type} [Wire K] (key : K) (shards : Nat) : Nat :=
  (Sha256.digest (Wire.encode key).data.toList).leading % shardsOf shards

theorem shardFor_lt {K : Type} [Wire K] (key : K) (shards : Nat) :
    shardFor key shards < shardsOf shards :=
  Nat.mod_lt _ (by simp only [shardsOf]; omega)

end DeltaRing
