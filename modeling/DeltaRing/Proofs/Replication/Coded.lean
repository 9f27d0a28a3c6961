import DeltaRing.CrdtType
import DeltaRing.Proofs.Replication.Listing

/-!
Types that have codes obey the laws of merging, operations and listings.

A code nests scalars, sets, registries and maps as a family does, but the operations on the value of
a key come one by one. So instances of types with codes converge as replicas of any family do.
-/

namespace DeltaRing.CrdtType

instance authored : (t : CrdtType) → Authored t.Delta
  | orSet item => inferInstanceAs (Authored (OrSetDelta item.Carrier))
  | registry key value => inferInstanceAs (Authored (LwwDelta key.Carrier value.Carrier))
  | orMap key value =>
    have := value.authored
    inferInstanceAs (Authored (OrMapDelta key.Carrier value.Delta))

instance summarized : (t : CrdtType) → Summary t.State t.Delta
  | orSet item => inferInstanceAs (Summary (OrSet item.Carrier) _)
  | registry key value => inferInstanceAs (Summary (LwwRegistry key.Carrier value.Carrier) _)
  | orMap key value =>
    have := value.summarized
    inferInstanceAs (Summary (OrMap key.Carrier value.State) _)

instance convergent : (t : CrdtType) → Convergent t.State
  | orSet item => inferInstanceAs (Convergent (OrSet item.Carrier))
  | registry key value => inferInstanceAs (Convergent (LwwRegistry key.Carrier value.Carrier))
  | orMap key value =>
    have := value.convergent
    inferInstanceAs (Convergent (OrMap key.Carrier value.State))

instance handsOutCoherently : (t : CrdtType) → HandsOutCoherently t.State
  | orSet item => inferInstanceAs (HandsOutCoherently (OrSet item.Carrier))
  | registry key value =>
    inferInstanceAs (HandsOutCoherently (LwwRegistry key.Carrier value.Carrier))
  | orMap key value =>
    have := value.handsOutCoherently
    inferInstanceAs (HandsOutCoherently (OrMap key.Carrier value.State))

instance listed : (t : CrdtType) → Listing t.State
  | orSet item => inferInstanceAs (Listing (OrSet item.Carrier))
  | registry key value => inferInstanceAs (Listing (LwwRegistry key.Carrier value.Carrier))
  | orMap key value =>
    have := value.listed
    inferInstanceAs (Listing (OrMap key.Carrier value.State))

end DeltaRing.CrdtType
