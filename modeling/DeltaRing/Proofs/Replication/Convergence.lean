import DeltaRing.Proofs.Replication.Family
import DeltaRing.Proofs.Replication.Run

/-!
Sets, registries and maps after any run.

The state of a replica is read off the set of deltas that it has merged. The order in which they
came, and how often each came, leaves no trace.
-/

namespace DeltaRing

variable {ι κ : Type} [DecidableEq ι] [DecidableEq κ]

namespace OrSet

open World

variable {α : Type} [Key α]

/-- **Sets converge.** No dot is used twice, every replica is the summary of what it has merged,
replicas that have merged the same deltas are equal, and an addition that a remover had not
observed survives the removal. -/
theorem sets_converge (actor : ι ↪ Actor) (actor' : κ ↪ Actor)
    (events : List (Event ι (OrSetOperation α) CausalContext))
    (events' : List (Event κ (OrSetOperation α) CausalContext)) :
    let w : World ι (OrSet α) (OrSetDelta α) := run actor events
    let w' : World κ (OrSet α) (OrSetDelta α) := run actor' events'
    (w.emitted.map OrSetDelta.dot).Nodup ∧
    (∀ i, (w.replica i).IsSummary {δ | δ ∈ w.delivered i}) ∧
    (∀ i j, (∀ δ, δ ∈ w.delivered i ↔ δ ∈ w'.delivered j) → w.replica i = w'.replica j) ∧
    ∀ past rest i j x d y, events = past ++ .operate j (.remove x) :: rest →
      let before : World ι (OrSet α) (OrSetDelta α) := run actor past
      .add d y ∉ before.delivered j → .add d y ∈ w.delivered i →
      (∀ r ts, .remove r ts ∈ w.delivered i → d ∈ ts →
        ((before.replica j).remove (actor j) x).2 = some (.remove r ts)) →
      d ∈ (w.replica i).dotsOf y := by
  intro w w'
  have h : Sound actor w := sound_run actor events
  have h' : Sound actor' w' := sound_run actor' events'
  have hE : OrSetDelta.Consistent {δ | δ ∈ w.emitted} := h.coherent
  refine ⟨?_, h.summarizes, fun i j => h.replica_eq h', ?_⟩
  · exact List.Nodup.map_on (fun δ hδ ε hε => hE.dot_inj δ hδ ε hε) h.nodup
  · intro past rest i j x d y hevents before hunseen hadd honly
    have hsummary : (w.replica i).IsSummary {δ | δ ∈ w.delivered i} := h.summarizes i
    refine (hsummary.mem_dotsOf y d).mpr ⟨hadd, ?_⟩
    rintro ⟨r, ts, hr, hd⟩
    -- the remover would have observed the dot, under the item that it removed
    have hpast : Sound actor before := sound_run actor past
    have hobserved := ((hpast.summarizes j : IsSummary _ _).mem_dotsOf x d).mp
      (mem_dotsOf_of_remove (honly r ts hr hd) hd)
    have hmem : .add d x ∈ w.emitted := by
      have := emitted_subset_run past (.operate j (.remove x) :: rest)
        (hpast.delivered_subset j hobserved.1)
      rwa [← hevents] at this
    have heq := hE.dot_inj _ hmem _ (h.delivered_subset i hadd) rfl
    rw [OrSetDelta.add.injEq] at heq
    exact hunseen (heq.2 ▸ hobserved.1)

/-- `a` adds an item twice, and `b`, which has seen only the first addition, removes it. -/
def removalBesideAddition : List (Event Bool (OrSetOperation Nat) CausalContext) :=
  [.operate false (.add 7), .deliver true 0, .operate false (.add 7), .operate true (.remove 7),
    .deliver false 2]

theorem unobserved_addition_survives :
    let w : World Bool (OrSet Nat) (OrSetDelta Nat) := run twoActors removalBesideAddition
    ⟨"a", 2⟩ ∈ (w.replica false).dotsOf 7 := by
  refine (sets_converge twoActors twoActors removalBesideAddition []).2.2.2
    (removalBesideAddition.take 3) [.deliver false 2] false true 7 _ _ rfl ?_ ?_ ?_
  · decide +kernel
  · decide +kernel
  · intro r ts hr hd
    have hdelivered : (run twoActors removalBesideAddition : World Bool (OrSet Nat) _).delivered
        false = [.add ⟨"a", 1⟩ 7, .add ⟨"a", 2⟩ 7, .remove ⟨"b", 1⟩ (.ofList [⟨"a", 1⟩])] := by
      decide +kernel
    rw [hdelivered] at hr
    simp only [List.mem_cons, reduceCtorEq, OrSetDelta.remove.injEq, List.not_mem_nil, or_false,
      false_or] at hr
    obtain ⟨rfl, rfl⟩ := hr
    decide +kernel

end OrSet

namespace LwwRegistry

open World LwwDelta

variable {K V : Type} [Key K]

/-- **Registries converge.** No key is written twice with one stamp, every replica holds for every
key the write with the greatest stamp that it has merged, replicas that have merged the same deltas
are equal, and a write that is rejected hands out nothing, changes nothing and tells which write it
met, which is the greatest. All other writes take effect. -/
theorem registries_converge (actor : ι ↪ Actor) (actor' : κ ↪ Actor)
    (events : List (Event ι (LwwOperation K V) (LwwTimestamp K)))
    (events' : List (Event κ (LwwOperation K V) (LwwTimestamp K))) :
    let w : World ι (LwwRegistry K V) (LwwDelta K V) := run actor events
    let w' : World κ (LwwRegistry K V) (LwwDelta K V) := run actor' events'
    (w.emitted.map fun δ => (δ.key, δ.stamp)).Nodup ∧
    (∀ i k e, (w.replica i).entries.get? k = some e ↔
      Wins {δ | δ ∈ w.delivered i} (ofEntry k e)) ∧
    (∀ i k, (w.replica i).entries.get? k = none ↔ ∀ δ ∈ w.delivered i, δ.key ≠ k) ∧
    (∀ i j, (∀ δ, δ ∈ w.delivered i ↔ δ ∈ w'.delivered j) → w.replica i = w'.replica j) ∧
    ∀ i op, let out := Operable.apply (w.replica i) (actor i) op
      (∀ met, out.2.1 = .conflict met →
        out.1 = w.replica i ∧ out.2.2 = [] ∧
          Wins {δ | δ ∈ w.delivered i} (ofEntry op.key ⟨met.winner, met.stamp⟩) ∧
          met.stamp.isBelow (op.delta (actor i)).stamp = false) ∧
      (out.2.1 = .applied → out.2.2 = [op.delta (actor i)] ∧
        ∀ δ ∈ w.delivered i, δ.key = op.key →
          δ.stamp.isBelow (op.delta (actor i)).stamp = true) := by
  intro w w'
  have h : Sound actor w := sound_run actor events
  have h' : Sound actor' w' := sound_run actor' events'
  have hE : Consistent {δ | δ ∈ w.emitted} := h.coherent
  have hsummary : ∀ i, (w.replica i).IsSummary {δ | δ ∈ w.delivered i} := h.summarizes
  refine ⟨?_, fun i k e => (hsummary i).get?_eq_some_iff hE (h.delivered_subset i),
    fun i k => (hsummary i).get?_eq_none_iff, fun i j => h.replica_eq h', fun i op => ?_⟩
  · refine List.Nodup.map_on (fun δ hδ ε hε heq => ?_) h.nodup
    rw [Prod.mk.injEq] at heq
    exact hE δ hδ ε hε heq.1 heq.2
  · intro out
    have hcases := (hsummary i).apply_cases hE (h.delivered_subset i) (actor i) op
    rcases hcases with ⟨met, hout, hwins, hle⟩ | ⟨hout, hbeats⟩
    · have hout : out = (w.replica i, .conflict met, []) := hout
      rw [hout]
      refine ⟨fun met' heq => ?_, nofun⟩
      cases heq
      exact ⟨rfl, rfl, hwins, hle⟩
    · have hout : out.2 = (.applied, [op.delta (actor i)]) := hout
      rw [hout]
      exact ⟨nofun, fun _ => ⟨rfl, hbeats⟩⟩

/-- Two replicas write a key at one time, `a` goes back in time after that, and each then gets what
the other has written. -/
def writesAtOneTime : List (Event Bool (LwwOperation Nat String) (LwwTimestamp Nat)) :=
  [.operate false (.set 1 "x" 5), .operate true (.remove 1 5), .operate false (.set 2 "y" 3),
    .deliver true 2, .deliver true 0, .deliver false 1, .deliver true 0]

theorem eq_after_writes_at_one_time :
    let w : World Bool (LwwRegistry Nat String) (LwwDelta Nat String) :=
      run twoActors writesAtOneTime
    w.replica false = w.replica true ∧
      (Operable.apply (w.replica false) "a" (.set 1 "z" 5)).1 = w.replica false ∧
      Wins {δ | δ ∈ w.delivered false} (.remove 1 ⟨5, "b"⟩) := by
  intro w
  obtain ⟨-, -, -, heq, hwrites⟩ :=
    registries_converge twoActors twoActors writesAtOneTime writesAtOneTime
  have hdelivered : w.delivered false =
        [.set 1 "x" ⟨5, "a"⟩, .set 2 "y" ⟨3, "a"⟩, .remove 1 ⟨5, "b"⟩] ∧
      w.delivered true = [.remove 1 ⟨5, "b"⟩, .set 2 "y" ⟨3, "a"⟩, .set 1 "x" ⟨5, "a"⟩,
        .set 1 "x" ⟨5, "a"⟩] := by
    decide +kernel
  have hrejected := (hwrites false (.set 1 "z" 5)).1 ⟨none, ⟨5, "b"⟩⟩ (by decide +kernel)
  refine ⟨heq false true fun δ => ?_, hrejected.1, hrejected.2.2.1⟩
  rw [hdelivered.1, hdelivered.2]
  simp only [List.mem_cons, List.not_mem_nil, or_false]
  tauto

end LwwRegistry

namespace OrMap

open World OrMapDelta

variable {K : Type} [Key K] (F : Family)

abbrev runMaps (actor : ι ↪ Actor)
    (events : List (Event ι (OrMapOperation K (List F.Operation)) (MapTimestamp K F.Timestamp))) :
    World ι (OrMap K F.State) (OrMapDelta K F.Delta) :=
  run (S := (Family.orMap K F).State) (T := (Family.orMap K F).Timestamp) actor events

lemma sound_runMaps (actor : ι ↪ Actor)
    (events : List (Event ι (OrMapOperation K (List F.Operation)) (MapTimestamp K F.Timestamp))) :
    Sound actor (runMaps F actor events) :=
  sound_run (S := (Family.orMap K F).State) (T := (Family.orMap K F).Timestamp) actor events

/-- **Maps converge, to any depth.** Every replica is the summary of what it has merged: the value
of a key is what merging the deltas delivered for it gives, whatever became of the key, and the key
is present if one of its dots is live. Replicas that have merged the same deltas are equal. -/
theorem maps_converge (actor : ι ↪ Actor) (actor' : κ ↪ Actor)
    (events : List (Event ι (OrMapOperation K (List F.Operation)) (MapTimestamp K F.Timestamp)))
    (events' : List (Event κ (OrMapOperation K (List F.Operation)) (MapTimestamp K F.Timestamp))) :
    let w := runMaps F actor events
    let w' := runMaps F actor' events'
    (∀ i, (w.replica i).IsSummary {δ | δ ∈ w.delivered i}) ∧
    (∀ i k l, (∀ δ, δ ∈ l ↔ .value k δ ∈ w.delivered i) →
      ((w.replica i).entryAt k).value = (mergeAll initial l).1) ∧
    (∀ i k, ((w.replica i).get? k).isSome ↔
      ∃ d, .add k d ∈ w.delivered i ∧ ¬ Buried {δ | δ ∈ w.delivered i} d) ∧
    ∀ i j, (∀ δ, δ ∈ w.delivered i ↔ δ ∈ w'.delivered j) → w.replica i = w'.replica j := by
  intro w w'
  have h : Sound actor w := sound_runMaps F actor events
  have h' : Sound actor' w' := sound_runMaps F actor' events'
  have hE : Consistent {δ | δ ∈ w.emitted} := h.coherent
  have hsummary : ∀ i, (w.replica i).IsSummary {δ | δ ∈ w.delivered i} := h.summarizes
  refine ⟨hsummary, fun i k l hl => ?_, fun i k => (hsummary i).isSome_get?_iff,
    fun i j => h.replica_eq h'⟩
  have hset : valueDeltas {δ | δ ∈ w.delivered i} k = {δ | δ ∈ l} := Set.ext fun δ => (hl δ).symm
  have hvalue := (hsummary i).value k
  rw [hset] at hvalue
  refine Convergent.eq_mergeAll_initial (hE.values k) ?_ hvalue
  rw [← hset]
  exact valueDeltas_mono (h.delivered_subset i)

/-- The value of a new key reaches `b` before the dot of the key does. -/
def valueBeforeKey :
    List (Event Bool (OrMapOperation Nat (List (OrSetOperation Nat)))
      (MapTimestamp Nat CausalContext)) :=
  [.operate false (.mutate 1 [.add 5]), .deliver true 1, .deliver true 0]

theorem eq_after_value_before_key :
    let w := runMaps (.orSet Nat) twoActors valueBeforeKey
    w.replica false = w.replica true := by
  refine (maps_converge (.orSet Nat) twoActors twoActors valueBeforeKey valueBeforeKey).2.2.2
    false true fun δ => ?_
  have hdelivered : (runMaps (.orSet Nat) twoActors valueBeforeKey).delivered true =
      ((runMaps (.orSet Nat) twoActors valueBeforeKey).delivered false).reverse := rfl
  exact hdelivered ▸ List.mem_reverse.symm

end OrMap

end DeltaRing
