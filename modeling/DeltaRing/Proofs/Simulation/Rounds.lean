import DeltaRing.Proofs.Simulation.Delivery
import Mathlib.Logic.Function.Iterate

/-!
Rounds make all replicas of a cluster equal.

Every delta that has been handed out is reflected by the replica that handed it out, also if it is
still on its way to others. A full round is an exchange between any two replicas, so it brings the
delta to all of them. A ring round brings it one place on in both directions, and no two places are
more than half the ring apart. Once all replicas reflect everything they are equal, and since a
digest then finds nothing to list, later rounds exchange nothing but digests.
-/

namespace DeltaRing.Simulation

/-! ### Places on a ring -/

section

variable {n k i j : Nat}

/-- The places are at most `k` steps apart on a ring of `n`. -/
def Near (n k i j : Nat) : Prop := ∃ d ≤ k, (j + d) % n = i ∨ (i + d) % n = j

lemma mem_ringPairs : (i, j) ∈ Cluster.ringPairs n ↔ i < n ∧ (i + 1) % n = j := by
  simp [Cluster.ringPairs]

lemma mem_allPairs : (i, j) ∈ Cluster.allPairs n ↔ i < n ∧ j < n ∧ i ≠ j := by
  simp [Cluster.allPairs]

lemma Near.eq (h : Near n 0 i j) (hi : i < n) (hj : j < n) : i = j := by
  obtain ⟨d, hd, h | h⟩ := h <;> obtain rfl := Nat.le_zero.mp hd
  · rw [Nat.add_zero, Nat.mod_eq_of_lt hj] at h
    exact h.symm
  · rwa [Nat.add_zero, Nat.mod_eq_of_lt hi] at h

/-- A path on the ring has a last step. -/
lemma Near.exists_step (h : Near n (k + 1) i j) (hi : i < n) : ∃ i' < n, Near n k i' j ∧
    (i = i' ∨ (i, i') ∈ Cluster.ringPairs n ∨ (i', i) ∈ Cluster.ringPairs n) := by
  have hn : 0 < n := by omega
  obtain ⟨d, hd, h⟩ := h
  cases d with
  | zero => exact ⟨i, hi, ⟨0, Nat.zero_le k, h⟩, .inl rfl⟩
  | succ d =>
    rcases h with h | h
    · refine ⟨(j + d) % n, Nat.mod_lt _ hn, ⟨d, by omega, .inl rfl⟩, .inr (.inr ?_)⟩
      rw [mem_ringPairs, Nat.mod_add_mod]
      exact ⟨Nat.mod_lt _ hn, h⟩
    · refine ⟨(i + 1) % n, Nat.mod_lt _ hn, ⟨d, by omega, .inr ?_⟩, .inr (.inl ?_)⟩
      · rw [Nat.mod_add_mod, ← h]
        congr 1
        omega
      · exact mem_ringPairs.mpr ⟨hi, rfl⟩

/-- From the smaller place to the larger one, or the other way round the ring. -/
lemma near_half_of_le (hij : i ≤ j) (hj : j < n) : Near n (n / 2) i j := by
  by_cases hd : j - i ≤ n / 2
  · refine ⟨j - i, hd, .inr ?_⟩
    rw [Nat.add_sub_cancel' hij, Nat.mod_eq_of_lt hj]
  · refine ⟨n - (j - i), by omega, .inl ?_⟩
    have hround : j + (n - (j - i)) = i + n := by omega
    rw [hround, Nat.add_mod_right, Nat.mod_eq_of_lt (by omega)]

lemma near_half (hi : i < n) (hj : j < n) : Near n (n / 2) i j := by
  rcases Nat.le_total i j with hij | hji
  · exact near_half_of_le hij hj
  · obtain ⟨d, hd, h⟩ := near_half_of_le hji hi
    exact ⟨d, hd, h.symm⟩

end

/-! ### Rounds -/

variable {S D T O R K : Type} [CausalTimestamp T D] [DeltaCrdt S D T] [Authored D] [Summary S D]
  {c c' : Cluster S D T} {n k i j : Nat} {δ : D} {δs E : List D} {s : S}

namespace Cluster

omit [Authored D] [Summary S D]

@[simp] lemma length_drain : c.drain.replicas.length = c.replicas.length :=
  drain_induction (P := fun c' => c'.replicas.length = c.replicas.length) rfl
    fun hc hstep => hstep.length_eq.trans hc

lemma ringRound_eq (h : 2 ≤ c.replicas.length) :
    c.ringRound = (c.initiateAll (ringPairs c.replicas.length)).drain := by
  rw [ringRound, if_neg (by omega)]

end Cluster

namespace Tracked

lemma length_exchange (h : Tracked E c) {pairs : List (Nat × Nat)} :
    (c.initiateAll pairs).drain.replicas.length = c.replicas.length := by
  rw [Cluster.length_drain, (Cluster.requested_initiateAll h.lossless pairs).replicas]

variable [Convergent S] [Retentive S]

lemma exchange (h : Tracked E c) {pairs : List (Nat × Nat)} :
    Tracked E (c.initiateAll pairs).drain := (h.initiateAll pairs).drain

lemma ringRound (h : Tracked E c) :
    Tracked E c.ringRound ∧ c.ringRound.replicas.length = c.replicas.length := by
  rw [Cluster.ringRound]
  split
  · exact ⟨h, rfl⟩
  · exact ⟨h.exchange, h.length_exchange⟩

lemma ringRounds (h : Tracked E c) (k : Nat) : Tracked E (Cluster.ringRound^[k] c) ∧
    (Cluster.ringRound^[k] c).replicas.length = c.replicas.length := by
  induction k with
  | zero => exact ⟨h, rfl⟩
  | succ k ih =>
    rw [Function.iterate_succ_apply']
    exact ⟨ih.1.ringRound.1, ih.1.ringRound.2.trans ih.2⟩

variable [Listing S] [OrderedListing S]

lemma reflects_fullRound (h : Tracked E c) (hi : i < c.replicas.length) (hδ : δ ∈ E)
    (hj : c.Reflects j δ) : c.fullRound.Reflects i δ := by
  refine h.reflects_of_exchange ?_ hi hδ hj
  by_cases hij : i = j
  · exact .inl hij
  · exact .inr (.inl (mem_allPairs.mpr ⟨hi, hj.lt_length, hij⟩))

/-- In `k` ring rounds a delta gets `k` places around in both directions. -/
lemma reflects_ringRounds (h : Tracked E c) (hn : 2 ≤ c.replicas.length)
    (hi : i < c.replicas.length) (hδ : δ ∈ E) (hj : c.Reflects j δ)
    (hnear : Near c.replicas.length k i j) : (Cluster.ringRound^[k] c).Reflects i δ := by
  induction k generalizing i with
  | zero =>
    obtain rfl := hnear.eq hi hj.lt_length
    exact hj
  | succ k ih =>
    obtain ⟨i', hi', hnear', hstep⟩ := hnear.exists_step hi
    obtain ⟨hk, hlength⟩ := h.ringRounds k
    rw [← hlength] at hn hi hstep
    rw [Function.iterate_succ_apply', Cluster.ringRound_eq hn]
    exact hk.reflects_of_exchange hstep hi hδ (ih hi' hnear')

end Tracked

/-! ### Sessions -/

/-- What every driver keeps that starts with `n` replicas: what has been handed out was handed out
by one of them. -/
structure Session.Kept (n : Nat) (x : Session S D T) : Prop where
  tracked : Tracked x.log x.cluster
  length_eq : x.cluster.replicas.length = n
  authored : ∀ δ ∈ x.log, ∃ i < n, author δ = replicaActors i

section

variable [Convergent S] [Retentive S] [Operable S D O R K] [operations : HandsOutCoherently S]

include operations in
lemma Tracked.operate? (h : Tracked E c) {op : O} {output : R}
    (hc : c.operate? i op = some (c', output, δs)) :
    Tracked (E ++ δs) c' ∧ c'.replicas.length = c.replicas.length ∧ i < c.replicas.length ∧
      ∀ δ ∈ δs, author δ = replicaActors i := by
  obtain ⟨w, hw, rfl⟩ := h.mirrored
  have hmirrored := hw.operate? hc
  simp only [Cluster.operate?, Option.bind_eq_bind, Option.bind_eq_some_iff] at hc
  obtain ⟨s, hs, hc⟩ := hc
  cases hc
  have hlt := (List.getElem?_eq_some_iff.mp hs).1
  have hout : HandsOut {δ | δ ∈ w.emitted} (replicaActors i) s
      (Operable.apply s (Cluster.replicaName i) op).1
      (Operable.apply s (Cluster.replicaName i) op).2.2 := by
    rw [← hw.replica i s hs]
    exact HandsOutCoherently.handsOut_apply hw.sound.coherent (hw.sound.delivered_subset i)
      (hw.sound.summarizes i) (hw.sound.own i)
  refine ⟨h.change hmirrored rfl (fun j δ hδ => ?_) fun _ _ _ _ hin => .inl hin,
    List.length_set, hlt, hout.authored⟩
  by_cases hj : i = j
  · subst hj
    refine ⟨_, List.getElem?_set_self hlt, ?_⟩
    rw [hout.state]
    exact Retentive.reflects_mergeAll (hδ.of_getElem? hs)
  · obtain ⟨s', hs', hδ⟩ := hδ
    exact ⟨s', (List.getElem?_set_ne hj).trans hs', hδ⟩

omit [Convergent S] [Retentive S] in
lemma Tracked.push? (h : Tracked E c) {sender receiver : Nat} (hδs : ∀ δ ∈ δs, δ ∈ E)
    (hc : c.push? sender receiver δs = some c') :
    Tracked E c' ∧ c'.replicas.length = c.replicas.length := by
  obtain ⟨w, hw, rfl⟩ := h.mirrored
  have hmirrored : ∃ w', Mirrors c' w' ∧ w'.emitted = w.emitted := ⟨w, hw.push? hδs hc, rfl⟩
  unfold Cluster.push? at hc
  split at hc
  · cases hc
    exact ⟨h, rfl⟩
  · split at hc
    · cases hc
      refine ⟨h.change hmirrored Network.fate_send (fun i δ hδ => hδ) fun _ _ _ _ hin => ?_, rfl⟩
      rcases Network.mem_of_mem_send hin with heq | hin
      · cases heq
      · exact .inl hin
    · cases hc

include operations in
lemma Session.Kept.step {x : Session S D T} (h : x.Kept n) (move : Move O) :
    (x.step move).Kept n := by
  obtain ⟨htracked, hlength, hauthored⟩ := h
  cases move with
  | operate i op =>
    rw [Session.step]
    split
    · exact ⟨htracked, hlength, hauthored⟩
    · rename_i c output δs hc
      obtain ⟨htracked', hlength', hi, hauthor⟩ := htracked.operate? hc
      refine ⟨htracked', hlength'.trans hlength, fun δ hδ => ?_⟩
      rcases List.mem_append.mp hδ with hδ | hδ
      · exact hauthored δ hδ
      · exact ⟨i, hlength ▸ hi, hauthor δ hδ⟩
  | push sender receiver picks =>
    simp only [Session.step]
    cases hc : x.cluster.push? sender receiver (picks.filterMap (x.log[·]?)) with
    | none => exact ⟨htracked, hlength, hauthored⟩
    | some c' =>
      obtain ⟨htracked', hlength'⟩ := htracked.push? (fun δ hδ => by
        obtain ⟨n, -, hn⟩ := List.mem_filterMap.mp hδ
        exact List.mem_of_getElem? hn) hc
      exact ⟨htracked', hlength'.trans hlength, hauthored⟩
  | initiate sender receiver =>
    have hc := Cluster.requested_initiateAll htracked.lossless [(sender, receiver)]
    exact ⟨htracked.initiateAll [(sender, receiver)],
      (congrArg List.length hc.replicas).trans hlength, hauthored⟩
  | process =>
    simp only [Session.step]
    cases hc : x.cluster.processOne? with
    | none => exact ⟨htracked, hlength, hauthored⟩
    | some c' => exact ⟨htracked.steps hc, (Cluster.Steps.length_eq hc).trans hlength, hauthored⟩
  | ringRound =>
    exact ⟨htracked.ringRound.1, htracked.ringRound.2.trans hlength, hauthored⟩
  | fullRound => exact ⟨htracked.exchange, htracked.length_exchange.trans hlength, hauthored⟩

include operations in
lemma Session.kept_run {batchSize : Nat} {fate : Nat → Fate} (hfate : ∀ k, (fate k).lost = false)
    (moves : List (Move O)) : (Session.run n batchSize fate moves : Session S D T).Kept n := by
  induction moves using List.reverseRecOn with
  | nil =>
    refine ⟨⟨⟨World.start, mirrors_ofSize n batchSize fate, rfl⟩, hfate, ?_⟩, ?_, ?_⟩
    · intro sender receiver t reply hin
      simp [Session.run, Cluster.ofSize, Network.quiet] at hin
    · simp [Session.run, Cluster.ofSize]
    · simp [Session.run]
  | append_singleton moves move ih =>
    rw [Session.run_append]
    exact ih.step move

omit [Retentive S] [Operable S D O R K] operations in
lemma Session.Kept.exists_reflects {x : Session S D T} (h : x.Kept n) (hδ : δ ∈ x.log) :
    ∃ i, x.cluster.Reflects i δ := by
  obtain ⟨i, hi, hauthor⟩ := h.authored δ hδ
  obtain ⟨w, hw, hE⟩ := h.tracked.mirrored
  have hs := List.getElem?_eq_getElem (h.length_eq ▸ hi)
  have hmem : δ ∈ w.delivered i := hw.sound.own i δ (hE ▸ hδ) hauthor
  refine ⟨i, _, hs, ?_⟩
  rw [← hw.replica i _ hs]
  exact Convergent.reflects_of_mem hw.sound.coherent (hw.sound.delivered_subset i)
    (hw.sound.summarizes i) hmem

end

/-! ### Agreement -/

section

variable [Convergent S]

lemma Tracked.exists_agreement (h : Tracked E c) (hpos : 0 < c.replicas.length)
    (hall : ∀ i < c.replicas.length, ∀ δ ∈ E, c.Reflects i δ) :
    ∃ s, Summarizes s {δ | δ ∈ E} ∧ c.replicas = List.replicate c.replicas.length s := by
  have hsummary : ∀ (i : Nat) (s : S), c.replicas[i]? = some s → Summarizes s {δ | δ ∈ E} := by
    intro i s hs
    obtain ⟨X, hX, hsum⟩ := h.exists_summary hs
    have hlt := (List.getElem?_eq_some_iff.mp hs).1
    have hreflects : ∀ δ ∈ E, reflects (timestamp s) δ = true := fun δ hδ =>
      (hall i hlt δ hδ).of_getElem? hs
    have := Convergent.summarizes_of_reflects h.coherent hX subset_rfl hsum hreflects
    rwa [Set.union_eq_self_of_subset_left hX] at this
  have hfirst := hsummary 0 _ (List.getElem?_eq_getElem hpos)
  refine ⟨c.replicas[0], hfirst, List.eq_replicate_iff.mpr ⟨rfl, fun s hs => ?_⟩⟩
  obtain ⟨i, hi⟩ := List.mem_iff_getElem?.mp hs
  exact Convergent.summarizes_unique h.coherent subset_rfl (hsummary i s hi) hfirst

variable [Listing S]

/-- The timestamps of some replicas join to the timestamp of what they have merged together. -/
lemma exists_join {ι : Type} {actor : ι ↪ Actor} {w : World ι S D} (h : World.Sound actor w)
    (places : List ι) : ∃ u : S, Summarizes u {δ | δ ∈ places.flatMap w.delivered} ∧
      timestamp u
        = (places.map fun i => timestamp (w.replica i)).foldl Lattice.join Lattice.bottom := by
  have hsubset : ∀ places : List ι, {δ | δ ∈ places.flatMap w.delivered} ⊆ {δ | δ ∈ w.emitted} := by
    intro places δ hδ
    obtain ⟨i, -, hi⟩ := List.mem_flatMap.mp hδ
    exact h.delivered_subset i hi
  induction places using List.reverseRecOn with
  | nil =>
    refine ⟨initial, ?_, Listing.timestamp_initial⟩
    simpa using Convergent.summarizes_initial
  | append_singleton places i ih =>
    obtain ⟨u, hu, ht⟩ := ih
    have hmerged := Convergent.summarizes_mergeAll h.coherent (hsubset places)
      (h.delivered_subset i) hu
    refine ⟨(mergeAll u (w.delivered i)).1, ?_, ?_⟩
    · convert hmerged using 1
      ext δ
      simp
    · rw [Convergent.timestamp_union h.coherent (hsubset places) (h.delivered_subset i) hu
        (h.summarizes i) hmerged, ht, List.map_append, List.foldl_append]
      rfl

lemma Session.Kept.timestamp_eq {x : Session S D T} (h : x.Kept n)
    (hs : Summarizes s {δ | δ ∈ x.log}) :
    timestamp s = (x.cluster.replicas.map timestamp).foldl Lattice.join Lattice.bottom := by
  obtain ⟨w, hw, hE⟩ := h.tracked.mirrored
  obtain ⟨u, hu, ht⟩ := exists_join hw.sound (List.range n)
  have hlog : {δ | δ ∈ (List.range n).flatMap w.delivered} = {δ | δ ∈ x.log} := by
    ext δ
    constructor
    · intro hδ
      obtain ⟨i, -, hi⟩ := List.mem_flatMap.mp hδ
      exact hE ▸ hw.sound.delivered_subset i hi
    · intro hδ
      obtain ⟨i, hi, hauthor⟩ := h.authored δ hδ
      exact List.mem_flatMap.mpr ⟨i, List.mem_range.mpr hi, hw.sound.own i δ (hE ▸ hδ) hauthor⟩
  have hreplicas : x.cluster.replicas = (List.range n).map w.replica := by
    refine List.ext_getElem (by simp [h.length_eq]) fun i hi _ => ?_
    rw [List.getElem_map, List.getElem_range, hw.replica i _ (List.getElem?_eq_getElem hi)]
  rw [hlog] at hu
  rw [Convergent.summarizes_unique h.tracked.coherent subset_rfl hs hu, ht, hreplicas, List.map_map]
  rfl

/-! ### Rounds once all agree -/

lemma deltasSince_own {X : Set D} (hX : Coherent X) (hs : Summarizes s X) :
    deltasSince s (some (timestamp s)) = [] := by
  refine List.eq_nil_iff_forall_not_mem.mpr fun δ hδ => ?_
  have hreflects := Convergent.reflects_of_mem hX subset_rfl hs
    (Convergent.mem_of_mem_deltasSince hs hδ)
  rw [(Listing.mem_deltasSince_some.mp hδ).2] at hreflects
  cases hreflects

end

namespace Cluster

omit [Authored D] [Summary S D]

lemma stats_deliver_digest (sender : Nat) (reply : Bool) {receiver : Nat} {t : T}
    (h : ∀ s, c.replicas[receiver]? = some s → batches s t c.batchSize = []) :
    (c.deliver (.digest sender receiver t reply)).stats.batches = c.stats.batches ∧
      (c.deliver (.digest sender receiver t reply)).stats.deltas = c.stats.deltas := by
  rw [deliver]
  split
  · exact ⟨rfl, rfl⟩
  · rename_i s hs
    simp [h s hs, total]

def Round (c c' : Cluster S D T) : Prop := c' = c.ringRound ∨ c' = c.fullRound

/-- Since all replicas agreed on `s`, no deltas have been sent, and no digest on its way asks for
any. -/
structure Quiet (s : S) (agreed c : Cluster S D T) : Prop where
  nothing : deltasSince s (some (timestamp s)) = []
  same : ∀ s' ∈ c.replicas, s' = s
  replicas : c.replicas = agreed.replicas
  batches : c.stats.batches = agreed.stats.batches
  deltas : c.stats.deltas = agreed.stats.deltas
  lossless : c.network.Lossless
  inFlight : ∀ m ∈ c.network.inFlight, ∃ sender receiver reply,
    m = .digest sender receiver (timestamp s) reply

namespace Quiet

variable {agreed : Cluster S D T}

lemma steps (h : Quiet s agreed c) (hc : c.Steps c') : Quiet s agreed c' := by
  obtain ⟨m, rest, hqueue, rfl⟩ := hc.exists_deliver
  have hrest : ∀ m ∈ rest, ∃ sender receiver reply,
      m = .digest sender receiver (timestamp s) reply := fun m' hm' =>
    h.inFlight m' (hqueue ▸ List.mem_cons_of_mem m hm')
  obtain ⟨sender, receiver, reply, rfl⟩ := h.inFlight m (hqueue ▸ List.mem_cons_self)
  have hbatches : ∀ s', (c.awaiting rest).replicas[receiver]? = some s' →
      DeltaRing.batches s' (timestamp s) (c.awaiting rest).batchSize = [] := by
    intro s' hs'
    obtain rfl := h.same s' (List.mem_of_getElem? hs')
    rw [DeltaRing.batches, h.nothing]
    rfl
  obtain ⟨hsentBatches, hsentDeltas⟩ := stats_deliver_digest sender reply hbatches
  refine ⟨h.nothing, ?_, replicas_deliver_digest.trans h.replicas, hsentBatches.trans h.batches,
    hsentDeltas.trans h.deltas, fun k => ?_, fun m hm => ?_⟩
  · rw [replicas_deliver_digest]
    exact h.same
  · rw [fate_deliver]
    exact h.lossless k
  · rcases mem_of_mem_deliver_digest hm with hm | ⟨s', hs', hanswer⟩
    · exact hrest m hm
    · rcases mem_answers.mp hanswer with ⟨batch, hbatch, -⟩ | ⟨-, hback⟩
      · rw [hbatches s' hs'] at hbatch
        cases hbatch
      · obtain rfl := h.same s' (List.mem_of_getElem? hs')
        exact ⟨_, _, _, hback⟩

lemma exchange (h : Quiet s agreed c) {pairs : List (Nat × Nat)} :
    Quiet s agreed (c.initiateAll pairs).drain := by
  have hc := requested_initiateAll h.lossless pairs
  refine drain_induction (P := fun c => Quiet s agreed c) ?_ fun h hstep => h.steps hstep
  refine ⟨h.nothing, hc.replicas ▸ h.same, hc.replicas.trans h.replicas, hc.batches.trans h.batches,
    hc.deltas.trans h.deltas, hc.lossless h.lossless, fun m hm => ?_⟩
  rcases (hc.mem_inFlight m).mp hm with hm | ⟨pair, -, s', hs', -, rfl⟩
  · exact h.inFlight m hm
  · obtain rfl := h.same s' (List.mem_of_getElem? hs')
    exact ⟨_, _, _, rfl⟩

lemma round (h : Quiet s agreed c) (hc : c.Round c') : Quiet s agreed c' := by
  rcases hc with rfl | rfl
  · rw [ringRound]
    split
    · exact h
    · exact h.exchange
  · exact h.exchange

lemma rounds (h : Quiet s agreed c) (hc : Relation.ReflTransGen Round c c') :
    Quiet s agreed c' := by
  induction hc with
  | refl => exact h
  | tail _ hlast ih => exact ih.round hlast

end Quiet

omit [CausalTimestamp T D] in
lemma isConverged_of_replicate [DecidableEq T] (h : c.replicas = List.replicate n s) :
    c.isConverged = true := by
  cases n with
  | zero => simp [isConverged, h]
  | succ n => simp [isConverged, h, List.replicate_succ]

end Cluster

/-! ### Convergence -/

/-- Rounds have ended in `c`, and everything handed out before has reached every replica. -/
structure Session.Spread (n : Nat) (x : Session S D T) (c : Cluster S D T) : Prop where
  tracked : Tracked x.log c
  length_eq : c.replicas.length = n
  drained : c.network.inFlight = []
  reflects : ∀ i < n, ∀ δ ∈ x.log, c.Reflects i δ

namespace Session.Kept

variable [Convergent S] [Retentive S] [Listing S] [OrderedListing S] {x : Session S D T}

lemma spread_fullRound (h : x.Kept n) : x.Spread n x.cluster.fullRound where
  tracked := h.tracked.exchange
  length_eq := h.tracked.length_exchange.trans h.length_eq
  drained := Cluster.inFlight_drain
  reflects i hi δ hδ := by
    obtain ⟨j, hj⟩ := h.exists_reflects hδ
    exact h.tracked.reflects_fullRound (h.length_eq ▸ hi) hδ hj

lemma spread_ringRounds (h : x.Kept n) (hn : 2 ≤ n) :
    x.Spread n (Cluster.ringRound^[n / 2] x.cluster) where
  tracked := (h.tracked.ringRounds (n / 2)).1
  length_eq := (h.tracked.ringRounds (n / 2)).2.trans h.length_eq
  drained := by
    obtain ⟨k, hk⟩ : ∃ k, n / 2 = k + 1 := ⟨n / 2 - 1, by omega⟩
    have hlength := (h.tracked.ringRounds k).2.trans h.length_eq
    rw [hk, Function.iterate_succ_apply', Cluster.ringRound_eq (hlength ▸ hn)]
    exact Cluster.inFlight_drain
  reflects i hi δ hδ := by
    obtain ⟨j, hj⟩ := h.exists_reflects hδ
    have hnear : Near n (n / 2) i j := near_half hi (h.length_eq ▸ hj.lt_length)
    rw [← h.length_eq] at hn hi hnear ⊢
    exact h.tracked.reflects_ringRounds hn hi hδ hj hnear

end Session.Kept

lemma Session.Spread.exists_quiet [Convergent S] [Listing S] {x : Session S D T}
    (h : x.Spread n c) (hn : 0 < n) : ∃ s, Summarizes s {δ | δ ∈ x.log} ∧
      c.replicas = List.replicate n s ∧ c.Quiet s c := by
  obtain ⟨s, hs, hreplicas⟩ := h.tracked.exists_agreement (h.length_eq ▸ hn)
    fun i hi => h.reflects i (h.length_eq ▸ hi)
  rw [h.length_eq] at hreplicas
  refine ⟨s, hs, hreplicas, deltasSince_own h.tracked.coherent hs, fun s' hs' => ?_, rfl, rfl, rfl,
    h.tracked.lossless, by simp [h.drained]⟩
  rw [hreplicas] at hs'
  exact List.eq_of_mem_replicate hs'

/-- **Rounds make all replicas equal.** Whatever has happened in a cluster of two or more replicas,
and whatever its network doubles and reorders, as long as it loses nothing: draining comes to an
end, and after one full round, as after half as many ring rounds as there are replicas, rounded
down, all replicas are equal, with the join of the timestamps before, and take themselves to have
converged. Later rounds of either kind send no deltas. -/
theorem equal_after_rounds (F : Family) [DecidableEq F.Timestamp] {n batchSize : Nat} (hn : 2 ≤ n)
    {fate : Nat → Fate} (hfate : ∀ k, (fate k).lost = false) (moves : List (Move F.Operation)) :
    let c : Cluster F.State F.Delta F.Timestamp := (Session.run n batchSize fate moves).cluster
    Relation.ReflTransGen Cluster.Steps c c.drain ∧ c.drain.processOne? = none ∧
    ∀ c', c' = c.fullRound ∨ c' = Cluster.ringRound^[n / 2] c →
      (∃ s, c'.replicas = List.replicate n s ∧
        timestamp s = (c.replicas.map timestamp).foldl Lattice.join Lattice.bottom) ∧
      c'.isConverged = true ∧
      ∀ c'', Relation.ReflTransGen Cluster.Round c' c'' →
        c''.replicas = c'.replicas ∧ c''.stats.batches = c'.stats.batches ∧
          c''.stats.deltas = c'.stats.deltas := by
  intro c
  have h : Session.Kept n (Session.run n batchSize fate moves : Session F.State _ _) :=
    Session.kept_run hfate moves
  refine ⟨(Cluster.steps_drain c).1, (Cluster.steps_drain c).2, fun c' hc' => ?_⟩
  have hspread : Session.Spread n (Session.run n batchSize fate moves) c' := by
    rcases hc' with rfl | rfl
    · exact h.spread_fullRound
    · exact h.spread_ringRounds hn
  obtain ⟨s, hs, hreplicas, hquiet⟩ := hspread.exists_quiet (by omega)
  refine ⟨⟨s, hreplicas, h.timestamp_eq hs⟩, Cluster.isConverged_of_replicate hreplicas,
    fun c'' hrounds => ?_⟩
  have hlater := hquiet.rounds hrounds
  exact ⟨hlater.replicas, hlater.batches, hlater.deltas⟩

/-- Some messages are doubled, and some jump the queue. -/
def doubledOrJumping (k : Nat) : Fate := ⟨false, k % 2 = 0, if k % 3 = 0 then some k else none⟩

/-- Items are added at two places and one of them is removed, while a delta and a digest are still
in flight. -/
def leftInFlight : List (Move (Family.orSet Nat).Operation) :=
  [.operate 0 (OrSetOperation.add 7), .push 0 1 [0], .operate 2 (OrSetOperation.add 8),
    .initiate 3 0, .process, .operate 0 (OrSetOperation.remove 7)]

theorem equal_after_two_ring_rounds :
    let c : Cluster (OrSet Nat) (OrSetDelta Nat) CausalContext :=
      (Session.run 5 1 doubledOrJumping leftInFlight :
        Session (Family.orSet Nat).State _ _).cluster
    c.network.inFlight.length = 2 ∧ c.isConverged = false ∧
    (Cluster.ringRound^[2] c).isConverged = true ∧
    ∃ s, (Cluster.ringRound^[2] c).replicas = List.replicate 5 s ∧
      timestamp s = CausalContext.empty.insertAll
        [⟨"replica_0", 1⟩, ⟨"replica_0", 2⟩, ⟨"replica_2", 1⟩] := by
  intro c
  obtain ⟨-, -, h⟩ := @equal_after_rounds (.orSet Nat)
    (inferInstanceAs (DecidableEq CausalContext)) 5 1 (by decide) doubledOrJumping
    (fun _ => rfl) leftInFlight
  obtain ⟨⟨s, hs, ht⟩, hconverged, -⟩ := h _ (.inr rfl)
  have hjoin : (c.replicas.map timestamp).foldl Lattice.join Lattice.bottom =
      CausalContext.empty.insertAll [⟨"replica_0", 1⟩, ⟨"replica_0", 2⟩, ⟨"replica_2", 1⟩] := by
    decide +kernel
  exact ⟨by decide +kernel, by decide +kernel, hconverged, s, hs, ht.trans hjoin⟩

end DeltaRing.Simulation
