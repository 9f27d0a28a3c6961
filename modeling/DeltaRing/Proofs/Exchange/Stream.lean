import DeltaRing.Proofs.Replication.Listing
import Mathlib.Algebra.Order.Floor.Div

/-!
What one side of an exchange streams, while it merges what the other side sends.

The deltas that a replica has to send are those that it lists for the peer's opening timestamp. A
cursor that has observed some of them leaves the others, also if deltas of the peer have been merged
since; so the batches cut the list into pieces, and how many there are depends on its length alone.
Every batch is news to the peer.
-/

namespace DeltaRing

variable {S D T : Type} [DeltaCrdt S D T]

/-- One merge that changes the replica is enough. -/
lemma mergeAll_cons_updated {s : S} {δ : D} {l : List D} (h : (merge s δ).2 = .updated) :
    (mergeAll s (δ :: l)).2 = .updated := by
  have hfold : ∀ p : S × MergeResult, p.2 = .updated →
      (l.foldl (fun p δ => ((merge p.1 δ).1, p.2.or (merge p.1 δ).2)) p).2 = .updated := by
    induction l with
    | nil => exact fun _ hp => hp
    | cons ε l ih => exact fun p hp => ih _ (by simp [hp, MergeResult.or])
  exact hfold ((merge s δ).1, MergeResult.unchanged.or (merge s δ).2) (by simp [h, MergeResult.or])

variable [CausalTimestamp T D]

lemma observeAll_cons {t : T} {δ : D} {l : List D} :
    observeAll t (δ :: l) = observeAll (observe t δ) l := rfl

lemma observeAll_append {t : T} {l l' : List D} :
    observeAll t (l ++ l') = observeAll (observeAll t l) l' := List.foldl_append

variable [Authored D] [Summary S D]

variable (S) in
lemma reflects_observeAll_of_reflects [Listing S] {t : T} {ε : D} {l : List D}
    (h : reflects t ε = true) : reflects (observeAll t l) ε = true := by
  induction l generalizing t with
  | nil => exact h
  | cons δ l ih => exact ih (Listing.reflects_observe_of_reflects S h)

/-! ### Cutting a list into batches -/

/-- The batches that a list has been cut into so far; all but the last one are full. -/
structure Cut {α : Type} (l : List α) (limit : Nat) (batches : List (List α)) : Prop where
  subset : ∀ a ∈ batches.flatten, a ∈ l
  nodup : batches.flatten.Nodup
  nonempty : ∀ batch ∈ batches, batch ≠ []
  length_flatten : batches.flatten.length = min (limit * batches.length) l.length
  needed : ∀ n < batches.length, limit * n < l.length

namespace Cut

variable {α : Type} {l batch : List α} {limit : Nat} {batches : List (List α)}

lemma nil : Cut l limit [] := ⟨by simp, by simp, by simp, by simp, by simp⟩

lemma append (h : Cut l limit batches) (hbatch : ∀ a ∈ batch, a ∈ l)
    (hnodup : (batches.flatten ++ batch).Nodup) (hne : batch ≠ [])
    (hlength : batch.length = min limit (l.length - batches.flatten.length)) :
    Cut l limit (batches ++ [batch]) := by
  have hpos := List.length_pos_of_ne_nil hne
  have hflatten := h.length_flatten
  have hleft : limit * batches.length < l.length := by omega
  refine ⟨fun a ha => ?_, by simpa using hnodup, fun b hb => ?_, ?_, fun n hn => ?_⟩
  · rw [List.flatten_append, List.flatten_singleton] at ha
    exact (List.mem_append.mp ha).elim (h.subset a) (hbatch a)
  · rcases List.mem_append.mp hb with hb | hb
    · exact h.nonempty b hb
    · rwa [List.mem_singleton.mp hb]
  · rw [List.flatten_append, List.flatten_singleton, List.length_append, List.length_append,
      List.length_singleton, Nat.mul_add]
    omega
  · rw [List.length_append, List.length_singleton] at hn
    rcases Nat.lt_succ_iff_lt_or_eq.mp hn with hn | rfl
    · exact h.needed n hn
    · exact hleft

lemma length_le (h : Cut l limit batches) (hlimit : 0 < limit) :
    batches.length ≤ l.length ⌈/⌉ limit := by
  rw [Nat.ceilDiv_eq_add_pred_div, Nat.le_div_iff_mul_le hlimit]
  cases hn : batches.length with
  | zero => omega
  | succ n =>
    have := h.needed n (by omega)
    rw [Nat.add_mul, Nat.mul_comm]
    omega

lemma length_eq (h : Cut l limit batches) (hlimit : 0 < limit)
    (hall : batches.flatten.length = l.length) : batches.length = l.length ⌈/⌉ limit := by
  refine Nat.le_antisymm (h.length_le hlimit) ?_
  have hflatten := h.length_flatten
  rw [ceilDiv_le_iff_le_mul hlimit]
  omega

lemma mem_flatten_iff (h : Cut l limit batches) (hall : batches.flatten.length = l.length) {a : α} :
    a ∈ batches.flatten ↔ a ∈ l :=
  ((h.nodup.subperm h.subset).perm_of_length_le hall.ge).mem_iff

end Cut

/-! ### Listing while merging -/

/-- Two replicas of one run, and what each of them has merged. -/
structure Kin (E X Y : Set D) (a b : S) : Prop where
  coherent : Coherent E
  left_subset : X ⊆ E
  right_subset : Y ⊆ E
  left : Summarizes a X
  right : Summarizes b Y

def pending (a b : S) : List D := deltasSince a (some (timestamp b))

namespace Kin

variable {E X Y : Set D} {a b v : S} {δ ε : D} {made : List D}

lemma symm (h : Kin E X Y a b) : Kin E Y X b a :=
  ⟨h.coherent, h.right_subset, h.left_subset, h.right, h.left⟩

variable [Listing S]

lemma mem_pending : δ ∈ pending a b ↔ δ ∈ deltasSince a none ∧ reflects (timestamp b) δ = false :=
  Listing.mem_deltasSince_some

/-- Observing listed deltas is reflecting them, and nothing else of the listing. -/
lemma reflects_observeAll (h : Kin E X Y a b) {t : T} (hmade : ∀ δ ∈ made, δ ∈ deltasSince a none)
    (hε : ε ∈ deltasSince a none) :
    reflects (observeAll t made) ε = true ↔ reflects t ε = true ∨ ε ∈ made := by
  induction made generalizing t with
  | nil => simp [observeAll]
  | cons δ made ih =>
    rw [observeAll_cons, ih fun δ hδ => hmade δ (List.mem_cons_of_mem _ hδ), List.mem_cons]
    by_cases heq : ε = δ
    · subst heq
      simp [Listing.reflects_observe_self S]
    · rw [Listing.reflects_observe_of_ne h.coherent h.left_subset h.left (hmade δ (by simp)) hε
        (Ne.symm heq)]
      simp [heq]

/-! ### Batches -/

/-- The cursor leaves what has not been sent, whatever has been merged of the peer's deltas. -/
lemma mem_deltasSince_cursor (h : Kin E X Y a b) {Z : Set D} (hZ : Z ⊆ Y)
    (hv : Summarizes v (X ∪ Z)) (hmade : ∀ δ ∈ made, δ ∈ pending a b) :
    ε ∈ deltasSince v (some (observeAll (timestamp b) made)) ↔ ε ∈ pending a b ∧ ε ∉ made := by
  have hlisted : ∀ δ ∈ made, δ ∈ deltasSince a none := fun δ hδ => (mem_pending.mp (hmade δ hδ)).1
  have hunion : reflects (timestamp b) ε = false →
      (ε ∈ deltasSince v none ↔ ε ∈ deltasSince a none) := fun hnew =>
    Listing.mem_deltasSince_union_iff h.coherent h.left_subset h.right_subset hZ h.left h.right hv
      hnew
  rw [Listing.mem_deltasSince_some, mem_pending]
  constructor
  · rintro ⟨hε, hcursor⟩
    have hnew : reflects (timestamp b) ε = false := by
      rw [← Bool.not_eq_true] at hcursor ⊢
      exact fun hknown => hcursor (reflects_observeAll_of_reflects S hknown)
    have hεa := (hunion hnew).mp hε
    refine ⟨⟨hεa, hnew⟩, fun hmem => ?_⟩
    rw [(h.reflects_observeAll hlisted hεa).mpr (.inr hmem)] at hcursor
    cases hcursor
  · rintro ⟨⟨hεa, hnew⟩, hnotmem⟩
    refine ⟨(hunion hnew).mpr hεa, ?_⟩
    rw [← Bool.not_eq_true, h.reflects_observeAll hlisted hεa, hnew]
    simpa using hnotmem

lemma length_deltasSince_cursor (h : Kin E X Y a b) {Z : Set D} (hZ : Z ⊆ Y)
    (hv : Summarizes v (X ∪ Z)) (hmade : ∀ δ ∈ made, δ ∈ pending a b) (hnodup : made.Nodup) :
    made.length + (deltasSince v (some (observeAll (timestamp b) made))).length =
      (pending a b).length := by
  have hmem := fun ε => h.mem_deltasSince_cursor (ε := ε) hZ hv hmade
  have hperm :
      (made ++ deltasSince v (some (observeAll (timestamp b) made))).Perm (pending a b) := by
    refine (List.perm_ext_iff_of_nodup ?_ (Listing.nodup_deltasSince a _)).mpr fun ε => ?_
    · refine List.nodup_append.mpr ⟨hnodup, Listing.nodup_deltasSince v _, ?_⟩
      rintro δ hδ ε hε rfl
      exact ((hmem δ).mp hε).2 hδ
    · change _ ↔ ε ∈ pending a b
      rw [List.mem_append, hmem]
      by_cases hε : ε ∈ made
      · simpa [hε] using hmade ε hε
      · simp [hε]
  rw [← hperm.length_eq, List.length_append]

lemma cut_nextBatch (h : Kin E X Y a b) {Z : Set D} (hZ : Z ⊆ Y) (hv : Summarizes v (X ∪ Z))
    {limit : Nat} (hlimit : 0 < limit) {batches : List (List D)}
    (hcut : Cut (pending a b) limit batches) {batch : List D} {cursor : T}
    (hnext : nextBatch v (observeAll (timestamp b) batches.flatten) limit = (batch, cursor)) :
    cursor = observeAll (timestamp b) (batches.flatten ++ batch) ∧
      (batch = [] → batches.flatten.length = (pending a b).length) ∧
      (batch ≠ [] → Cut (pending a b) limit (batches ++ [batch])) := by
  rw [nextBatch, Prod.mk.injEq] at hnext
  obtain ⟨rfl, rfl⟩ := hnext
  have hlength := h.length_deltasSince_cursor hZ hv hcut.subset hcut.nodup
  have hmem := fun δ => h.mem_deltasSince_cursor (ε := δ) hZ hv hcut.subset
  have hnodup := Listing.nodup_deltasSince v (some (observeAll (timestamp b) batches.flatten))
  generalize deltasSince v (some (observeAll (timestamp b) batches.flatten)) = left at *
  have hbatch : (left.take (max limit 1)).length =
      min limit ((pending a b).length - batches.flatten.length) := by
    rw [List.length_take, Nat.max_eq_left hlimit]
    omega
  refine ⟨observeAll_append.symm, fun hempty => ?_, fun hne => hcut.append (fun δ hδ => ?_) ?_ hne
    hbatch⟩
  · rw [hempty, List.length_nil] at hbatch
    omega
  · exact ((hmem δ).mp (List.mem_of_mem_take hδ)).1
  · refine List.nodup_append.mpr ⟨hcut.nodup, hnodup.take, ?_⟩
    rintro δ hδ ε hε rfl
    exact ((hmem δ).mp (List.mem_of_mem_take hε)).2 hδ

/-! ### News -/

variable [Convergent S]

omit [Listing S] in
lemma mem_left (h : Kin E X Y a b) {since : Option T} (hδ : δ ∈ deltasSince a since) : δ ∈ X :=
  Convergent.mem_of_mem_deltasSince h.left hδ

/-- A replica that merges deltas which are pending for it reflects them, and nothing else of what
is pending. -/
lemma reflects_mergeAll (h : Kin E X Y a b) {u : S} (hmade : ∀ δ ∈ made, δ ∈ deltasSince a none)
    (hnew : ∀ δ ∈ made, reflects (timestamp u) δ = false) (hnodup : made.Nodup)
    (hε : ε ∈ deltasSince a none) :
    reflects (timestamp (mergeAll u made).1) ε = true ↔
      reflects (timestamp u) ε = true ∨ ε ∈ made := by
  have hE : ∀ δ ∈ deltasSince a none, δ ∈ E := fun δ hδ => h.left_subset (h.mem_left hδ)
  induction made generalizing u with
  | nil => simp
  | cons δ made ih =>
    have hδ := hmade δ (by simp)
    obtain ⟨-, hmerged⟩ :=
      Listing.merge_of_not_reflects h.coherent (hE δ hδ) (hnew δ (by simp))
    have hother : ∀ ζ ∈ deltasSince a none, ζ ≠ δ →
        reflects (timestamp (merge u δ).1) ζ = reflects (timestamp u) ζ := fun ζ hζ hne =>
      (hmerged ζ (hE ζ hζ)).trans
        (Listing.reflects_observe_of_ne h.coherent h.left_subset h.left hδ hζ (Ne.symm hne))
    obtain ⟨hnotmem, hnodup⟩ := List.nodup_cons.mp hnodup
    rw [mergeAll_cons, List.mem_cons]
    refine (ih (fun ζ hζ => hmade ζ (List.mem_cons_of_mem _ hζ)) (fun ζ hζ => ?_) hnodup).trans ?_
    · rw [hother ζ (hmade ζ (List.mem_cons_of_mem _ hζ)) fun heq => hnotmem (heq ▸ hζ)]
      exact hnew ζ (List.mem_cons_of_mem _ hζ)
    · by_cases heq : ε = δ
      · subst heq
        simp [hmerged ε (hE ε hδ), Listing.reflects_observe_self S]
      · rw [hother ε hε heq]
        simp [heq]

/-- What has not come yet changes the peer. -/
lemma mergeAll_updated (h : Kin E X Y a b) {batch : List D}
    (hpending : ∀ δ ∈ made ++ batch, δ ∈ pending a b) (hnodup : (made ++ batch).Nodup)
    (hbatch : batch ≠ []) : (mergeAll (mergeAll b made).1 batch).2 = .updated := by
  obtain ⟨δ, batch, rfl⟩ := List.exists_cons_of_ne_nil hbatch
  obtain ⟨hmade, -, hdisjoint⟩ := List.nodup_append.mp hnodup
  have hlisted : ∀ ε ∈ made ++ δ :: batch, ε ∈ deltasSince a none ∧
      reflects (timestamp b) ε = false := fun ε hε => mem_pending.mp (hpending ε hε)
  obtain ⟨hδ, hnew⟩ := hlisted δ (by simp)
  have hunseen : reflects (timestamp (mergeAll b made).1) δ = false := by
    rw [← Bool.not_eq_true, h.reflects_mergeAll (fun ε hε => (hlisted ε (by simp [hε])).1)
      (fun ε hε => (hlisted ε (by simp [hε])).2) hmade hδ, hnew]
    simpa using fun hmem => hdisjoint δ hmem δ (by simp) rfl
  exact mergeAll_cons_updated
    (Listing.merge_of_not_reflects h.coherent (h.left_subset (h.mem_left hδ)) hunseen).1

end Kin

end DeltaRing
