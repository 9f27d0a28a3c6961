import DeltaRing.Proofs.Exchange.Stream
import DeltaRing.Proofs.Replication.Run

/-!
Listings are minimal, and a cursor walks them in order.

Nothing that a replica lists is superfluous. No listed delta is reflected by the timestamp or comes
twice, and where the timestamp is that of another replica, each of the deltas changes that one, in
whatever order they are merged. A cursor that has observed some of a listing leaves the others in
their order, so batches are consecutive pieces of the listing.
-/

namespace DeltaRing

class OrderedListing (S : Type) {D T : outParam Type} [CausalTimestamp T D] [DeltaCrdt S D T] :
    Prop where
  /-- A timestamp takes deltas out of the full listing and leaves the others as they are. -/
  deltasSince_some (s : S) (t : T) :
    deltasSince s (some t) = (deltasSince s none).filter fun δ => !reflects t δ

instance {α : Type} [Key α] : OrderedListing (OrSet α) where
  deltasSince_some s c := by
    change s.deltasSince (some c) = (s.deltasSince none).filter _
    simp only [OrSet.deltasSince, List.filter_append, List.filter_filterMap, List.filter_flatMap,
      List.filter_map, List.filter_filter]
    congr 1
    simp [OrSetDelta.dot]

instance {K V : Type} [Key K] : OrderedListing (LwwRegistry K V) where
  deltasSince_some r t := by
    change r.deltasSince (some t) = (r.deltasSince none).filter _
    simp only [LwwRegistry.deltasSince, List.filter_filterMap]
    refine List.filterMap_congr fun ⟨k, e⟩ _ => ?_
    have hreflects : reflects t (LwwDelta.ofEntry k e) =
        (t.stamps.get? k).any fun seen => !seen.isBelow e.stamp := by simp [reflects]
    cases ht : t.stamps.get? k <;> simp [Option.filter, hreflects, ht]

instance {K V D T : Type} [Key K] [CausalTimestamp T D] [DeltaCrdt V D T] [OrderedListing V] :
    OrderedListing (OrMap K V) where
  deltasSince_some m t := by
    change m.deltasSince (some t) = (m.deltasSince none).filter _
    simp only [OrMap.deltasSince, List.filter_append, List.filter_filterMap, List.filter_flatMap,
      List.filter_map, List.filter_filter]
    congr 1
    · congr 1
      simp [reflects]
    · refine List.flatMap_congr fun ⟨k, e⟩ _ => congrArg (List.map _) ?_
      change deltasSince e.value (t.values.get? k) = (deltasSince e.value none).filter
        fun δ => !(t.values.get? k).any fun tᵥ => reflects tᵥ δ
      cases t.values.get? k with
      | none => simp
      | some tᵥ => exact OrderedListing.deltasSince_some e.value tᵥ

instance Family.orderedListing : (F : Family) → OrderedListing F.State
  | orSet α => inferInstanceAs (OrderedListing (OrSet α))
  | registry K V => inferInstanceAs (OrderedListing (LwwRegistry K V))
  | orMap K value =>
    have := value.orderedListing
    inferInstanceAs (OrderedListing (OrMap K value.State))

/-! ### What a cursor leaves -/

section

variable {S D T : Type} [CausalTimestamp T D] [DeltaCrdt S D T]

def cursorAfter (s : S) (limit : Nat) (t : T) (n : Nat) : T :=
  (fun t => (nextBatch s t limit).2)^[n] t

def batchAfter (s : S) (limit : Nat) (t : T) (n : Nat) : List D :=
  (nextBatch s (cursorAfter s limit t n) limit).1

lemma cursorAfter_succ (s : S) (limit : Nat) (t : T) (n : Nat) :
    cursorAfter s limit t (n + 1) =
      observeAll (cursorAfter s limit t n) (batchAfter s limit t n) :=
  Function.iterate_succ_apply' _ _ _

end

lemma filter_notMem_take {α : Type} [DecidableEq α] {l : List α} (h : l.Nodup) (n : Nat) :
    (l.filter fun a => decide (a ∉ l.take n)) = l.drop n := by
  have hfirst : ((l.take n).filter fun a => decide (a ∉ l.take n)) = [] :=
    List.filter_eq_nil_iff.mpr fun a ha => by simp [ha]
  have hrest : ((l.drop n).filter fun a => decide (a ∉ l.take n)) = l.drop n :=
    List.filter_eq_self.mpr fun a ha => by
      simpa using fun hfirst => List.disjoint_take_drop h le_rfl hfirst ha
  calc (l.filter fun a => decide (a ∉ l.take n))
      = ((l.take n ++ l.drop n).filter fun a => decide (a ∉ l.take n)) := by
        rw [List.take_append_drop]
    _ = l.drop n := by rw [List.filter_append, hfirst, hrest, List.nil_append]

lemma flatten_map_slices {α : Type} (l : List α) (size n : Nat) :
    ((List.range n).map fun k => (l.drop (size * k)).take size).flatten = l.take (size * n) := by
  induction n with
  | zero => simp
  | succ n ih =>
    rw [List.range_succ, List.map_append, List.flatten_append, ih, Nat.mul_succ, List.take_add]
    simp

namespace Kin

variable {S D T : Type} [CausalTimestamp T D] [DeltaCrdt S D T] [Authored D] [Summary S D]
  [Listing S] [OrderedListing S] {E X Y : Set D} {s u : S} {t : T} {seen : List D} {limit n : Nat}

/-- **A cursor that has observed listed deltas leaves the others in their order.** -/
theorem deltasSince_observeAll [DecidableEq D] (h : Kin E X Y s u)
    (hseen : seen ⊆ deltasSince s (some t)) : deltasSince s (some (observeAll t seen)) =
      (deltasSince s (some t)).filter fun δ => decide (δ ∉ seen) := by
  have hlisted : ∀ δ ∈ seen, δ ∈ deltasSince s none := fun δ hδ =>
    (Listing.mem_deltasSince_some.mp (hseen hδ)).1
  rw [OrderedListing.deltasSince_some, OrderedListing.deltasSince_some, List.filter_filter]
  refine List.filter_congr fun ε hε => ?_
  have hobserved := h.reflects_observeAll (t := t) hlisted hε
  rw [Bool.eq_iff_iff, Bool.not_eq_true', ← Bool.not_eq_true, hobserved]
  simp [and_comm]

lemma deltasSince_observeAll_take (h : Kin E X Y s u) (n : Nat) :
    deltasSince s (some (observeAll t ((deltasSince s (some t)).take n))) =
      (deltasSince s (some t)).drop n := by
  classical
  rw [h.deltasSince_observeAll (List.take_subset n _),
    filter_notMem_take (Listing.nodup_deltasSince s _)]

lemma cursorAfter_eq (h : Kin E X Y s u) (limit : Nat) (t : T) (n : Nat) :
    cursorAfter s limit t n =
      observeAll t ((deltasSince s (some t)).take (max limit 1 * n)) := by
  induction n with
  | zero => rfl
  | succ n ih =>
    rw [cursorAfter_succ, batchAfter, nextBatch, ih, h.deltasSince_observeAll_take,
      ← observeAll_append, Nat.mul_succ, List.take_add]

lemma batchAfter_eq (h : Kin E X Y s u) (limit : Nat) (t : T) (n : Nat) :
    batchAfter s limit t n =
      ((deltasSince s (some t)).drop (max limit 1 * n)).take (max limit 1) := by
  rw [batchAfter, nextBatch, h.cursorAfter_eq, h.deltasSince_observeAll_take]

lemma batchAfter_eq_nil_iff (h : Kin E X Y s u) :
    batchAfter s limit t n = [] ↔ (deltasSince s (some t)).length ⌈/⌉ max limit 1 ≤ n := by
  rw [h.batchAfter_eq, List.take_eq_nil_iff, List.drop_eq_nil_iff,
    ceilDiv_le_iff_le_mul (by omega), or_iff_right (by omega)]

lemma batchesWithin_eq (h : Kin E X Y s u) (limit : Nat) (t : T) {fuel : Nat}
    (hfuel : (deltasSince s (some t)).length ⌈/⌉ max limit 1 ≤ n + fuel) :
    batchesWithin s limit fuel (cursorAfter s limit t n) =
      (List.range' n ((deltasSince s (some t)).length ⌈/⌉ max limit 1 - n)).map
        (batchAfter s limit t) := by
  induction fuel generalizing n with
  | zero =>
    rw [batchesWithin, Nat.sub_eq_zero_of_le (Nat.add_zero n ▸ hfuel), List.range'_zero,
      List.map_nil]
  | succ fuel ih =>
    rw [batchesWithin]
    split
    · rename_i hnext
      have hempty : batchAfter s limit t n = [] := congrArg Prod.fst hnext
      rw [Nat.sub_eq_zero_of_le (h.batchAfter_eq_nil_iff.mp hempty), List.range'_zero, List.map_nil]
    · rename_i batch cursor hne hnext
      obtain rfl : batchAfter s limit t n = batch := congrArg Prod.fst hnext
      obtain rfl : cursorAfter s limit t (n + 1) = cursor :=
        (cursorAfter_succ s limit t n).trans (congrArg Prod.snd hnext)
      have hleft : ¬(deltasSince s (some t)).length ⌈/⌉ max limit 1 ≤ n := fun hle =>
        hne (h.batchAfter_eq_nil_iff.mpr hle)
      have hsucc : (deltasSince s (some t)).length ⌈/⌉ max limit 1 - n =
          (deltasSince s (some t)).length ⌈/⌉ max limit 1 - (n + 1) + 1 := by omega
      rw [ih (by omega), hsucc, List.range'_succ, List.map_cons]

lemma batches_eq (h : Kin E X Y s u) (limit : Nat) (t : T) :
    batches s t limit =
      (List.range ((deltasSince s (some t)).length ⌈/⌉ max limit 1)).map
        (batchAfter s limit t) := by
  have hfuel : (deltasSince s (some t)).length ⌈/⌉ max limit 1 ≤
      0 + (deltasSince s (some t)).length := by
    rw [Nat.zero_add, ceilDiv_le_iff_le_mul (by omega)]
    exact Nat.le_mul_of_pos_left _ (by omega)
  have hall := h.batchesWithin_eq limit t hfuel
  rwa [Nat.sub_zero, ← List.range_eq_range'] at hall

lemma flatten_batches (h : Kin E X Y s u) (limit : Nat) (t : T) :
    (batches s t limit).flatten = deltasSince s (some t) := by
  have hpieces : batchAfter s limit t = fun k =>
      ((deltasSince s (some t)).drop (max limit 1 * k)).take (max limit 1) :=
    funext (h.batchAfter_eq limit t)
  rw [h.batches_eq, hpieces, flatten_map_slices, List.take_eq_self_iff]
  exact (ceilDiv_le_iff_le_mul (by omega)).mp le_rfl

omit [OrderedListing S] in
/-- **Every listed delta changes the peer**, whichever of the others it has merged before. -/
theorem merge_updated [Convergent S] {before after : List D} {δ : D} (h : Kin E X Y s u)
    (hperm : (before ++ δ :: after).Perm (pending s u)) :
    (merge (mergeAll u before).1 δ).2 = .updated := by
  have hbegins : before ++ [δ] <+: before ++ δ :: after := by simp
  have hnodup : (before ++ δ :: after).Nodup :=
    hperm.nodup_iff.mpr (Listing.nodup_deltasSince s _)
  have hpending : ∀ ε ∈ before ++ [δ], ε ∈ pending s u := fun ε hε =>
    hperm.subset (hbegins.subset hε)
  have hupdated := h.mergeAll_updated hpending (hnodup.sublist hbegins.sublist) (by simp)
  simpa [mergeAll, MergeResult.or] using hupdated

end Kin

/-! ### Replicas of a run -/

/-- Any two replicas of a run are kin, each at any moment of it. -/
lemma World.kin_run {ι : Type} [DecidableEq ι] (F : Family) (actor : ι ↪ Actor)
    (events : List (Event ι F.Operation F.Timestamp)) (n m : Nat) (i j : ι) :
    let w : World ι F.State F.Delta := run actor (events.take n)
    let w' : World ι F.State F.Delta := run actor (events.take m)
    Kin {δ | δ ∈ (run actor events : World ι F.State F.Delta).emitted}
      {δ | δ ∈ w.delivered i} {δ | δ ∈ w'.delivered j} (w.replica i) (w'.replica j) := by
  have hsound : ∀ es, (run actor es : World ι F.State F.Delta).Sound actor :=
    World.sound_run actor
  have hemitted : ∀ n, {δ | δ ∈ (run actor (events.take n) : World ι F.State F.Delta).emitted} ⊆
      {δ | δ ∈ (run actor events : World ι F.State F.Delta).emitted} := fun n =>
    (emitted_subset_run (events.take n) (events.drop n)).trans_eq (by rw [List.take_append_drop])
  exact ⟨(hsound events).coherent, ((hsound _).delivered_subset i).trans (hemitted n),
    ((hsound _).delivered_subset j).trans (hemitted m), (hsound _).summarizes i,
    (hsound _).summarizes j⟩

/-- **Listings are minimal.** Whatever the timestamp is, a replica of a run lists no delta that it
reflects and none twice. What it lists for the timestamp of another replica, at any two moments of
the run, all changes that other replica, in whatever order it is merged. -/
theorem listing_is_minimal {ι : Type} [DecidableEq ι] (F : Family) (actor : ι ↪ Actor)
    (events : List (Event ι F.Operation F.Timestamp)) (n m : Nat) (i j : ι) :
    let s := (World.run actor (events.take n) : World ι F.State F.Delta).replica i
    let u := (World.run actor (events.take m) : World ι F.State F.Delta).replica j
    (∀ t : F.Timestamp, (deltasSince s (some t)).Nodup ∧
      ∀ δ ∈ deltasSince s (some t), reflects t δ = false) ∧
    ∀ before δ after, (before ++ δ :: after).Perm (deltasSince s (some (timestamp u))) →
      (merge (mergeAll u before).1 δ).2 = .updated := by
  intro s u
  refine ⟨fun t => ⟨Listing.nodup_deltasSince s _, fun δ hδ => ?_⟩, fun before δ after hperm => ?_⟩
  · exact (Listing.mem_deltasSince_some.mp hδ).2
  · exact (World.kin_run F actor events n m i j).merge_updated hperm

/-- A replica writes to two keys and removes one of them; another one has only got one value. -/
def oneValueDelivered :
    List (Event Bool (Family.orMap Nat (.orSet Nat)).Operation
      (Family.orMap Nat (.orSet Nat)).Timestamp) :=
  [.operate false (OrMapOperation.mutate 1 [OrSetOperation.add 5, OrSetOperation.add 6]),
    .deliver true 1, .operate false (OrMapOperation.mutate 2 [OrSetOperation.add 7]),
    .operate false (OrMapOperation.remove 2)]

/-- Four deltas are listed, and merging them from the last to the first ends with news. -/
theorem updated_in_reverse_order :
    let s := (World.run twoActors (oneValueDelivered.take 4) :
      World Bool (Family.orMap Nat (.orSet Nat)).State _).replica false
    let u := (World.run twoActors (oneValueDelivered.take 2) :
      World Bool (Family.orMap Nat (.orSet Nat)).State _).replica true
    let l := deltasSince s (some (timestamp u))
    l.length = 4 ∧ ∀ δ ∈ l.head?, (merge (mergeAll u l.tail.reverse).1 δ).2 = .updated := by
  intro s u l
  refine ⟨by decide +kernel, fun δ hδ => ?_⟩
  obtain ⟨rest, hl⟩ := List.head?_eq_some_iff.mp hδ
  have hperm : (l.tail.reverse ++ δ :: []).Perm l := by
    rw [hl, List.tail_cons]
    exact (List.perm_append_singleton δ _).trans (rest.reverse_perm.cons δ)
  exact (listing_is_minimal (.orMap Nat (.orSet Nat)) twoActors oneValueDelivered 4 2 false true).2
    _ δ [] hperm

/-- **A cursor walks the listing.** From any timestamp on, a cursor that has observed some of the
deltas that a replica of a run lists leaves the others, in their order. So the batches are
consecutive pieces of the listing, of the size asked for but at least one; they make up the listing,
and the first empty one comes after as many as it takes. -/
theorem listing_resumes {ι : Type} [DecidableEq ι] (F : Family) [DecidableEq F.Delta]
    (actor : ι ↪ Actor) (events : List (Event ι F.Operation F.Timestamp)) (i : ι)
    (c : F.Timestamp) :
    let s := (World.run actor events : World ι F.State F.Delta).replica i
    let l := deltasSince s (some c)
    (∀ seen, seen ⊆ l →
      deltasSince s (some (observeAll c seen)) = l.filter fun δ => decide (δ ∉ seen)) ∧
    ∀ limit,
      (∀ n, batchAfter s limit c n = (l.drop (max limit 1 * n)).take (max limit 1)) ∧
      (∀ n, batchAfter s limit c n = [] ↔ l.length ⌈/⌉ max limit 1 ≤ n) ∧
      batches s c limit =
        (List.range (l.length ⌈/⌉ max limit 1)).map (batchAfter s limit c) ∧
      (batches s c limit).flatten = l := by
  intro s l
  have hall := World.kin_run F actor events events.length events.length i i
  rw [List.take_length] at hall
  have h : Kin _ _ _ s s := hall
  exact ⟨fun seen hseen => h.deltasSince_observeAll hseen, fun limit => ⟨h.batchAfter_eq limit c,
    fun n => h.batchAfter_eq_nil_iff, h.batches_eq limit c, h.flatten_batches limit c⟩⟩

/-- A cursor that has seen one of two values of a key leaves the other deltas in order. -/
theorem listing_resumes_after_one_value :
    let s : OrMap Nat (OrSet Nat) := (World.run twoActors oneValueDelivered :
      World Bool (Family.orMap Nat (.orSet Nat)).State _).replica false
    let l : List (OrMapDelta Nat (OrSetDelta Nat)) := [.remove 2 ⟨"a", 3⟩ (.ofList [⟨"a", 2⟩]),
      .add 1 ⟨"a", 1⟩, .value 1 (.add ⟨"a", 1⟩ 5), .value 2 (.add ⟨"a", 1⟩ 7)]
    let c : MapTimestamp Nat CausalContext := Lattice.bottom
    let seen : List (OrMapDelta Nat (OrSetDelta Nat)) := [.value 1 (.add ⟨"a", 2⟩ 6)]
    deltasSince s (some (observeAll c seen)) = l := by
  intro s l c seen
  have hlisted : seen ⊆ deltasSince s (some c) := by decide +kernel
  have h := @listing_resumes Bool _ (.orMap Nat (.orSet Nat))
    (inferInstanceAs (DecidableEq (OrMapDelta Nat (OrSetDelta Nat)))) twoActors oneValueDelivered
    false c
  have hleft : (deltasSince s (some c)).filter (fun δ => decide (δ ∉ seen)) = l := by
    decide +kernel
  exact (h.1 seen hlisted).trans hleft

end DeltaRing
