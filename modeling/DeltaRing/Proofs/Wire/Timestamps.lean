import DeltaRing.Proofs.Replication.OrMap
import DeltaRing.Proofs.Replication.Registry
import DeltaRing.Proofs.Wire.Records

/-!
Timestamps of replicas whose deltas can be sent can be sent too.

A timestamp has no numbers but those of the deltas that were merged, so it fits its words if they
do.
-/

namespace DeltaRing

open LawfulWire

class Sendable (S : Type) {D T : outParam Type} [DeltaCrdt S D T] [Wire D] [LawfulWire D]
    [Wire T] [LawfulWire T] : Prop where
  fits_initial : Fits (timestamp (initial : S))
  fits_merge {s : S} {δ : D} : Fits (timestamp s) → Fits δ → Fits (timestamp (merge s δ).1)

lemma Sendable.fits_mergeAll {S D T : Type} [DeltaCrdt S D T] [Wire D] [LawfulWire D] [Wire T]
    [LawfulWire T] [Sendable S] {s : S} {l : List D} (hs : Fits (timestamp s))
    (hl : ∀ δ ∈ l, Fits δ) : Fits (timestamp (mergeAll s l).1) := by
  induction l generalizing s with
  | nil => exact hs
  | cons δ l ih =>
    rw [mergeAll_cons]
    exact ih (fits_merge hs (hl δ List.mem_cons_self)) fun ε hε => hl ε (List.mem_cons_of_mem δ hε)

/-! ### Contexts -/

namespace CausalContext

variable {c : CausalContext} {d : Dot}

lemma fits_iff : Fits c ↔ ∀ d, c.contains d = true → d.counter < word64 := by
  rw [fits_context_iff]
  constructor
  · rintro ⟨hfrontier, hcloud⟩ d hd
    rcases contains_iff.mp hd with hle | hin
    · cases hn : c.frontier.get? d.actor with
      | none =>
        rw [frontierOf, SortedMap.getD, hn, Option.getD_none] at hle
        exact Nat.lt_of_le_of_lt hle (by decide)
      | some n =>
        rw [frontierOf, SortedMap.getD, hn, Option.getD_some] at hle
        exact Nat.lt_of_le_of_lt hle (hfrontier (d.actor, n) (SortedMap.mem_entries_iff.mpr hn))
    · exact hcloud d hin
  · intro h
    refine ⟨fun e he => h ⟨e.1, e.2⟩ (contains_iff.mpr (.inl ?_)), fun d hd =>
      h d (contains_iff.mpr (.inr hd))⟩
    rw [frontierOf, SortedMap.getD, SortedMap.mem_entries_iff.mp he, Option.getD_some]

lemma fits_empty : Fits empty := fits_iff.mpr fun d hd => by
  rcases contains_iff.mp hd with hle | hin
  · have hzero : d.counter ≤ 0 := hle
    exact Nat.lt_of_le_of_lt hzero (by decide)
  · cases hin

lemma fits_insert (hc : Fits c) (hd : d.counter < word64) : Fits (c.insert d) :=
  fits_iff.mpr fun e he => (contains_insert.mp he).elim (fits_iff.mp hc e) fun h => h ▸ hd

lemma fits_insertAll {ds : List Dot} (hc : Fits c) (hds : ∀ d ∈ ds, d.counter < word64) :
    Fits (c.insertAll ds) :=
  fits_iff.mpr fun e he => (contains_insertAll.mp he).elim (fits_iff.mp hc e) (hds e)

end CausalContext

open CausalContext

/-! ### Sets -/

instance {α : Type} [Key α] [Wire α] [LawfulWire α] : Sendable (OrSet α) where
  fits_initial := fits_empty
  fits_merge {s δ} hs hδ := by
    change Fits (s.merge δ).1.context
    unfold OrSet.merge
    split
    · exact hs
    · cases δ with
      | add d x => exact fits_insert hs hδ.1
      | remove r ts => exact fits_insertAll hs (List.forall_mem_cons.mpr hδ)

/-! ### Registries -/

instance {K V : Type} [Key K] [Wire K] [LawfulWire K] [Wire V] [LawfulWire V] :
    Sendable (LwwRegistry K V) where
  fits_initial _ _ hget := by cases hget
  fits_merge {r δ} hr hδ := by
    change FitsEntries (r.merge δ).1.timestamp.stamps
    have hfits : Fits δ.key ∧ Fits δ.stamp := by
      cases δ with
      | set k v stamp => exact ⟨hδ.1, hδ.2.2⟩
      | remove k stamp => exact hδ
    rw [LwwRegistry.merge]
    split
    · exact hr
    · intro k stamp hget
      rw [LwwRegistry.get?_timestamp] at hget
      by_cases hk : k = δ.key
      · subst hk
        rw [SortedMap.get?_insert_self] at hget
        cases δ <;> cases hget <;> exact hfits
      · rw [SortedMap.get?_insert_of_ne hk, ← LwwRegistry.get?_timestamp] at hget
        exact hr k stamp hget

/-! ### Maps -/

section

variable {K V D T : Type} [Key K] [DeltaCrdt V D T] [Wire K] [LawfulWire K] [Wire T]
  [LawfulWire T] {m m' : OrMap K V} {k : K} {e : OrMapEntry V}

lemma OrMap.fits_values_insert (hm : FitsEntries m.timestamp.values)
    (hentries : m'.entries = m.entries.insert k e) (hk : Fits k)
    (he : Fits (DeltaRing.timestamp e.value)) : FitsEntries m'.timestamp.values := by
  intro k' t hget
  rw [OrMap.get?_timestamp, hentries] at hget
  by_cases hkey : k' = k
  · subst hkey
    rw [SortedMap.get?_insert_self] at hget
    cases hget
    exact ⟨hk, he⟩
  · rw [SortedMap.get?_insert_of_ne hkey, ← OrMap.get?_timestamp] at hget
    exact hm k' t hget

variable [Wire D] [LawfulWire D] [Sendable V]

lemma OrMap.fits_entryAt (hm : FitsEntries m.timestamp.values) (k : K) :
    Fits (DeltaRing.timestamp (m.entryAt k).value) := by
  cases he : m.entries.get? k with
  | none =>
    rw [entryAt_of_get?_eq_none he]
    exact Sendable.fits_initial
  | some e =>
    rw [entryAt_of_get? he]
    exact (hm k _ (by rw [get?_timestamp, he, Option.map_some])).2

instance : Sendable (OrMap K V) where
  fits_initial := ⟨fits_empty, fun _ _ hget => by cases hget⟩
  fits_merge {m δ} hm hδ := by
    obtain ⟨hcontext, hvalues⟩ := hm
    cases δ with
    | add k d =>
      change Fits (timestamp (m.merge (.add k d)).1)
      rw [OrMap.merge]
      split
      · exact ⟨hcontext, hvalues⟩
      · exact ⟨fits_insert hcontext hδ.2, OrMap.fits_values_insert hvalues
          (SortedMap.alter_eq_insert _) hδ.1 (OrMap.fits_entryAt hvalues k)⟩
    | remove k r ts =>
      change Fits (timestamp (m.merge (.remove k r ts)).1)
      rw [OrMap.merge]
      split
      · exact ⟨hcontext, hvalues⟩
      · exact ⟨fits_insertAll hcontext (List.forall_mem_cons.mpr hδ.2), OrMap.fits_values_insert
          hvalues (SortedMap.alter_eq_insert _) hδ.1 (OrMap.fits_entryAt hvalues k)⟩
    | value k δ =>
      exact ⟨hcontext, OrMap.fits_values_insert hvalues rfl hδ.1
        (Sendable.fits_merge (OrMap.fits_entryAt hvalues k) hδ.2)⟩

end

/-! ### Types that have codes -/

instance CrdtType.sendable : (t : CrdtType) → Sendable t.State
  | orSet item => inferInstanceAs (Sendable (OrSet item.Carrier))
  | registry key value => inferInstanceAs (Sendable (LwwRegistry key.Carrier value.Carrier))
  | orMap key value =>
    have := value.sendable
    inferInstanceAs (Sendable (OrMap key.Carrier value.State))

end DeltaRing
