import DeltaRing.Proofs.Exchange.Stream
import DeltaRing.Proofs.Replication.AntiEntropy

/-!
Streaming from a replica that goes on changing.

Between two batches of a stream the replica applies operations and merges what comes in: additions
are buried, writes are beaten, and new removals are listed before what the cursor has passed. The
cursor knows only what was sent and what the sent deltas make known, so it hides nothing from a
receiver that has merged the batches: once a batch is empty, the receiver covers the replica as it
is at that moment.
-/

namespace DeltaRing

class Observant (S : Type) {D T : outParam Type} [CausalTimestamp T D] [DeltaCrdt S D T]
    [Authored D] [Summary S D] : Prop where
  /-- Observing a delta makes nothing known that is news to one who has merged the delta. -/
  reflects_of_observe {E Y : Set D} {u : S} {t : T} {δ ε : D} : Coherent E → Y ⊆ E →
    Summarizes u Y → δ ∈ Y → ε ∈ E → reflects (observe t δ) ε = true →
    reflects t ε = true ∨ reflects (timestamp u) ε = true

namespace OrSet

variable {α : Type} [Key α]

instance : Observant (OrSet α) where
  reflects_of_observe {E Y u t δ ε} hE _ hu hδ hε h := by
    have hE : OrSetDelta.Consistent E := hE
    have hu : u.IsSummary Y := hu
    refine (CausalContext.contains_insertAll.mp h).imp_right fun hdot => ?_
    exact (hu.contains_iff (hE.counter_pos ε hε)).mpr ⟨δ, hδ, hdot⟩

end OrSet

namespace LwwRegistry

variable {K V : Type} [Key K]

instance : Observant (LwwRegistry K V) where
  reflects_of_observe {E Y u t δ ε} _ _ hu hδ _ h := by
    have hu : u.IsSummary Y := hu
    have hknown : reflects (timestamp u) δ = true := reflects_timestamp_iff.mpr (hu.newest δ hδ)
    by_cases hk : δ.key = ε.key
    · obtain ⟨s, hs, hle⟩ := reflects_iff.mp h
      rw [← hk, get?_observe, Option.some.injEq] at hs
      subst hs
      cases ht : t.stamps.get? δ.key with
      | none =>
        rw [ht] at hle
        exact .inr (reflects_of_le hk hle hknown)
      | some seen =>
        -- the stamp after observing is one of the two
        rw [ht, LwwStamp.newerOf] at hle
        split at hle
        · exact .inr (reflects_of_le hk hle hknown)
        · exact .inl (reflects_iff.mpr ⟨seen, hk ▸ ht, hle⟩)
    · exact .inl (by rwa [reflects_observe_of_key_ne (Ne.symm hk)] at h)

end LwwRegistry

namespace OrMap

variable {K V D T : Type} [Key K] [CausalTimestamp T D] [DeltaCrdt V D T] [Authored D]
  [Summary V D] [Convergent V] [Listing V] [Observant V]

instance : Observant (OrMap K V) where
  reflects_of_observe {E Y u t δ ε} hE hY hu hδ hε h := by
    have hE : OrMapDelta.Consistent E := hE
    have hu : u.IsSummary Y := hu
    cases hd : ε.dot? with
    | some d =>
      rw [OrMapDelta.reflects_of_dot? hd] at h ⊢
      rw [OrMapDelta.reflects_of_dot? hd]
      refine (contains_observe.mp h).imp_right fun hnamed => (hu.contains_iff hE hε hd).mpr ?_
      exact hnamed.imp (fun hdot => ⟨δ, hδ, hdot⟩)
        fun hb => hb.mono (Set.singleton_subset_iff.mpr hδ)
    | none =>
      obtain ⟨k, ε, rfl⟩ := OrMapDelta.exists_eq_value hd
      cases δ with
      | add k' d => exact .inl (by rwa [reflects_observe_of_dot? (d := d) rfl] at h)
      | remove k' r ts => exact .inl (by rwa [reflects_observe_of_dot? (d := r) rfl] at h)
      | value k' δ =>
        by_cases hk : k = k'
        · subst hk
          rw [reflects_value_getD V hE hε, get?_observe_value] at h
          rw [reflects_value_getD V hE hε, reflects_timestamp_value hE hε]
          exact Observant.reflects_of_observe (hE.values k) (OrMapDelta.valueDeltas_mono hY)
            (hu.value k) hδ hε h
        · exact .inl (by rwa [reflects_observe_value_of_ne hk] at h)

end OrMap

instance Family.observant : (F : Family) → Observant F.State
  | orSet α => inferInstanceAs (Observant (OrSet α))
  | registry K V => inferInstanceAs (Observant (LwwRegistry K V))
  | orMap K value =>
    have := value.observant
    inferInstanceAs (Observant (OrMap K value.State))

/-! ### Cursors -/

section

variable {S D T : Type} [CausalTimestamp T D] [DeltaCrdt S D T] [Authored D] [Summary S D]
  {E X Y : Set D} {s u : S} {since t : T} {δ ε : D} {sent : List D}

variable (S) in
lemma reflects_observeAll_of_mem [Listing S] {l : List D} (h : δ ∈ l) :
    reflects (observeAll t l) δ = true := by
  induction l generalizing t with
  | nil => cases h
  | cons ε l ih =>
    rw [observeAll_cons]
    rcases List.mem_cons.mp h with rfl | h
    · exact reflects_observeAll_of_reflects S (Listing.reflects_observe_self S t δ)
    · exact ih h

/-- A cursor reflects what it reflected at the start and what the sent deltas make known. -/
lemma reflects_of_observeAll [Observant S] (hE : Coherent E) (hY : Y ⊆ E) (hu : Summarizes u Y)
    (hsent : ∀ δ ∈ sent, δ ∈ Y) (hε : ε ∈ E) (h : reflects (observeAll since sent) ε = true) :
    reflects since ε = true ∨ reflects (timestamp u) ε = true := by
  induction sent generalizing since with
  | nil => exact .inl h
  | cons δ sent ih =>
    rcases ih (fun ζ hζ => hsent ζ (List.mem_cons_of_mem δ hζ)) h with h | h
    · exact Observant.reflects_of_observe hE hY hu (hsent δ (by simp)) hε h
    · exact .inr h

/-- Where nothing is left to send, who has merged what was sent covers the sender. -/
lemma leq_of_deltasSince_eq_nil [DecidableEq T] [Convergent S] [Observant S] {l l' : List D}
    (hE : Coherent E) (hl : {δ | δ ∈ l} ⊆ E) (hl' : {δ | δ ∈ l'} ⊆ E)
    (hs : Summarizes s {δ | δ ∈ l}) (hu : Summarizes u {δ | δ ∈ l'})
    (hsince : ∀ δ ∈ E, reflects since δ = true → reflects (timestamp u) δ = true)
    (hsent : ∀ δ ∈ sent, δ ∈ l') (hleft : deltasSince s (some (observeAll since sent)) = []) :
    Lattice.leq (timestamp s) (timestamp u) = true := by
  have hcursor : ∀ t ∈ some (observeAll since sent), ∀ δ ∈ E, reflects t δ = true →
      reflects (timestamp u) δ = true := by
    rintro t ⟨⟩ δ hδ h
    exact (reflects_of_observeAll hE hl' hu hsent hδ h).elim (hsince δ hδ) id
  have hall : ∀ δ ∈ l, reflects (timestamp u) δ = true := fun δ hδ =>
    Convergent.reflects_of_deltasSince hE hl hl' hs hu hcursor (by simp [hleft]) hδ
  have hunion := Convergent.summarizes_of_reflects hE hl' hl hu hall
  rw [Set.union_comm] at hunion
  exact Lattice.leq_iff.mpr (Convergent.timestamp_union hE hl hl' hs hu hunion).symm

end

/-! ### A stream in a run -/

inductive Turn (ι O T : Type) where
  /-- Something that happens in any run. -/
  | event (e : Event ι O T)
  /-- The reader of the stream asks for the next batch. -/
  | pull

/-- A run of replicas, one of which streams what the holder of a timestamp lacks. -/
structure Streaming (ι S D T : Type) where
  world : World ι S D
  /-- Where the stream stands. -/
  cursor : T
  /-- The batches so far. -/
  made : List (List D)
  /-- The streaming replica as it was when the first empty batch ended the stream. -/
  final : Option S

namespace Streaming

open World

variable {ι S D T O R K : Type} [CausalTimestamp T D] [DeltaCrdt S D T]

def start (w : World ι S D) (since : T) : Streaming ι S D T := ⟨w, since, [], none⟩

/-- Makes the next batch from the state of the replica at this moment. Batches go into circulation;
an empty one is the last. -/
def pull (a : ι) (limit : Nat) (x : Streaming ι S D T) : Streaming ι S D T :=
  if x.final.isSome then x else
  match nextBatch (x.world.replica a) x.cursor limit with
  | ([], _) => { x with final := some (x.world.replica a) }
  | (batch, cursor) =>
    { x with
      world := { x.world with sent := x.world.sent ++ batch }
      cursor := cursor
      made := x.made ++ [batch] }

variable [DecidableEq ι] [Operable S D O R K]

def turn (actor : ι → Actor) (a : ι) (limit : Nat) (x : Streaming ι S D T) :
    Turn ι O T → Streaming ι S D T
  | .event e => { x with world := x.world.step actor e }
  | .pull => x.pull a limit

/-- A stream for the holder of `since`, which begins in the world `w` and goes on for some turns. -/
def run (actor : ι → Actor) (a : ι) (limit : Nat) (w : World ι S D) (since : T)
    (turns : List (Turn ι O T)) : Streaming ι S D T :=
  turns.foldl (turn actor a limit) (start w since)

/-! ### What every turn keeps -/

variable {actor : ι ↪ Actor} {a : ι} {limit : Nat} {since : T} {x : Streaming ι S D T}
  [Authored D] [Summary S D]

structure Kept (actor : ι ↪ Actor) (limit : Nat) (since : T) (x : Streaming ι S D T) : Prop where
  sound : Sound actor x.world
  cursor : x.cursor = observeAll since x.made.flatten
  sized : ∀ batch ∈ x.made, 1 ≤ batch.length ∧ batch.length ≤ max limit 1
  nodup : x.made.flatten.Nodup
  /-- At its end the replica had merged what was handed out, and nothing was left to send. -/
  ended : ∀ s ∈ x.final, deltasSince s (some x.cursor) = [] ∧
    ∃ l : List D, {δ | δ ∈ l} ⊆ {δ | δ ∈ x.world.emitted} ∧ Summarizes s {δ | δ ∈ l}

omit [DecidableEq ι] in
lemma Kept.pull [laws : Convergent S] [Listing S] (h : Kept actor limit since x) :
    Kept actor limit since (x.pull a limit) := by
  unfold Streaming.pull nextBatch
  split_ifs with hfinal
  · exact h
  have hlisted := Listing.nodup_deltasSince (x.world.replica a) (some x.cursor)
  have hnew : ∀ δ ∈ deltasSince (x.world.replica a) (some x.cursor), δ ∉ x.made.flatten := by
    intro δ hδ hmade
    have hunseen := (Listing.mem_deltasSince_some.mp hδ).2
    rw [h.cursor, reflects_observeAll_of_mem S hmade] at hunseen
    cases hunseen
  have hmerged : ∀ δ ∈ deltasSince (x.world.replica a) (some x.cursor), δ ∈ x.world.emitted :=
    fun δ hδ => h.sound.delivered_subset a
      (Convergent.mem_of_mem_deltasSince (h.sound.summarizes a) hδ)
  split
  · rename_i hbatch
    obtain ⟨hempty, -⟩ := Prod.mk.inj hbatch
    have hleft := (List.take_eq_nil_iff.mp hempty).resolve_left (by omega)
    refine { h with ended := ?_ }
    rintro s ⟨⟩
    exact ⟨hleft, _, h.sound.delivered_subset a, h.sound.summarizes a⟩
  · rename_i batch cursor hne hbatch
    obtain ⟨rfl, rfl⟩ := Prod.mk.inj hbatch
    have hmem : ∀ δ ∈ (deltasSince (x.world.replica a) (some x.cursor)).take (max limit 1),
        δ ∈ deltasSince (x.world.replica a) (some x.cursor) := fun δ => List.mem_of_mem_take
    refine ⟨{ h.sound with sent_subset := ?_ }, ?_, ?_, ?_, ?_⟩
    · rintro δ hδ
      exact (List.mem_append.mp hδ).elim (fun hδ => h.sound.sent_subset hδ)
        fun hδ => hmerged δ (hmem δ hδ)
    · simp only [List.flatten_append, List.flatten_singleton, observeAll_append, h.cursor]
    · intro batch hb
      rcases List.mem_append.mp hb with hb | hb
      · exact h.sized batch hb
      · rw [List.mem_singleton.mp hb]
        refine ⟨List.length_pos_of_ne_nil fun hnil => hne ?_, List.length_take_le _ _⟩
        rw [hnil]
    · rw [List.flatten_append, List.flatten_singleton]
      exact List.nodup_append.mpr ⟨h.nodup, hlisted.take, fun δ hδ ε hε heq =>
        hnew ε (hmem ε hε) (heq ▸ hδ)⟩
    · intro s hs
      rw [Option.not_isSome_iff_eq_none] at hfinal
      simp [hfinal] at hs

variable [laws : Convergent S] [operations : HandsOutCoherently S] [Listing S]

lemma Kept.turn (h : Kept actor limit since x) (t : Turn ι O T) :
    Kept actor limit since (x.turn actor a limit t) := by
  cases t with
  | event e =>
    refine ⟨h.sound.step e, h.cursor, h.sized, h.nodup, fun s hs => ?_⟩
    obtain ⟨hleft, l, hl, hs⟩ := h.ended s hs
    exact ⟨hleft, l, hl.trans (emitted_subset_step e), hs⟩
  | pull => exact h.pull

lemma kept_run {w : World ι S D} (hw : Sound actor w) (turns : List (Turn ι O T)) :
    Kept actor limit since (Streaming.run actor a limit w since turns) := by
  induction turns using List.reverseRecOn with
  | nil => exact ⟨hw, rfl, by simp [Streaming.run, start], by simp [Streaming.run, start],
      by simp [Streaming.run, start]⟩
  | append_singleton turns t ih =>
    rw [Streaming.run, List.foldl_append]
    exact Kept.turn ih t

end Streaming

/-- **A stream misses nothing while its replica changes.** Batches are neither empty nor too long,
and no delta is sent twice. Whoever reflects what the stream was spared and has merged the batches,
in any order and among other merges, covers the replica as it was when the stream ended. -/
theorem covers_streamed {ι : Type} [DecidableEq ι] (F : Family) [DecidableEq F.Timestamp]
    (actor : ι ↪ Actor) (past : List (Event ι F.Operation F.Timestamp)) (a : ι) (limit : Nat)
    (since : F.Timestamp) (turns : List (Turn ι F.Operation F.Timestamp)) :
    let x : Streaming ι F.State F.Delta F.Timestamp :=
      Streaming.run actor a limit (World.run actor past) since turns
    (∀ batch ∈ x.made, 1 ≤ batch.length ∧ batch.length ≤ max limit 1) ∧
    x.made.flatten.Nodup ∧
    ∀ final ∈ x.final, ∀ b, x.world.NotAhead b (some since) →
      (∀ batch ∈ x.made, ∀ δ ∈ batch, δ ∈ x.world.delivered b) →
      Lattice.leq (timestamp final) (timestamp (x.world.replica b)) = true := by
  intro x
  have h : x.Kept actor limit since := Streaming.kept_run (World.sound_run actor past) turns
  refine ⟨h.sized, h.nodup, fun final hfinal b hsince hmerged => ?_⟩
  obtain ⟨hleft, l, hl, hs⟩ := h.ended final hfinal
  rw [h.cursor] at hleft
  refine leq_of_deltasSince_eq_nil h.sound.coherent hl (h.sound.delivered_subset b) hs
    (h.sound.summarizes b) (hsince since rfl) (fun δ hδ => ?_) hleft
  obtain ⟨batch, hbatch, hδ⟩ := List.mem_flatten.mp hδ
  exact hmerged batch hbatch δ hδ

/-- A replica that has added two items streams the first, then removes the second. The batches
reach the other replica in the wrong order, and a third item comes too late for the stream. -/
def removedMidway : Streaming Bool (OrSet Nat) (OrSetDelta Nat) CausalContext :=
  Streaming.run twoActors false 1
    (World.run twoActors
      [.operate false (OrSetOperation.add 7), .operate false (OrSetOperation.add 8)])
    Lattice.bottom
    [.pull, .event (.operate false (OrSetOperation.remove 8)), .pull, .event (.deliver true 4),
      .event (.deliver true 2), .pull, .event (.operate false (OrSetOperation.add 9)), .pull]

/-- The addition that was buried before its turn is not missed. -/
theorem covers_removedMidway : removedMidway.made.length = 2 ∧ ∃ final ∈ removedMidway.final,
    Lattice.leq (timestamp final) (timestamp (removedMidway.world.replica true)) = true := by
  have hmerged : ∀ batch ∈ removedMidway.made, ∀ δ ∈ batch,
      δ ∈ removedMidway.world.delivered true := by decide +kernel
  have hsince : removedMidway.world.NotAhead true (some Lattice.bottom) := by
    rintro t ⟨⟩
    decide +kernel
  obtain ⟨final, hfinal⟩ : ∃ final, final ∈ removedMidway.final :=
    Option.isSome_iff_exists.mp (by decide +kernel)
  obtain ⟨-, -, hcovers⟩ := @covers_streamed Bool _ (.orSet Nat)
    (inferInstanceAs (DecidableEq CausalContext)) twoActors _ false 1 Lattice.bottom _
  exact ⟨by decide +kernel, final, hfinal, hcovers final hfinal true hsince hmerged⟩

end DeltaRing
