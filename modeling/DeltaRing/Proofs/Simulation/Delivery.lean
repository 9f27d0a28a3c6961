import DeltaRing.Proofs.Replication.Enumeration
import DeltaRing.Proofs.Replication.Freshness
import DeltaRing.Proofs.Simulation.Cluster

/-!
What a cluster brings about when its network loses nothing.

Answers are made when a digest is processed, from a timestamp taken when it was sent, and messages
are doubled and reordered. Still, of any delta that one of two replicas reflects when they start an
exchange it can be said at every moment how it gets to the other one: it is on its way there, or a
digest is on its way that will see to it. So once no message is in flight both reflect it.
-/

namespace DeltaRing.Simulation

namespace Network

variable {M : Type} {net : Network M} {m x : M}

/-- No message is lost; what happens to it otherwise is open. -/
def Lossless (net : Network M) : Prop := ∀ k, (net.fate k).lost = false

@[simp] lemma fate_send : (net.send m).fate = net.fate := by
  rw [send]
  dsimp only
  split <;> rfl

@[simp] lemma fate_sendAll {ms : List M} : (net.sendAll ms).fate = net.fate := by
  induction ms generalizing net with
  | nil => rfl
  | cons m ms ih => exact ih.trans fate_send

lemma Lossless.mem_send (h : net.Lossless) :
    x ∈ (net.send m).inFlight ↔ x = m ∨ x ∈ net.inFlight := by
  refine ⟨mem_of_mem_send, fun hx => ?_⟩
  rw [send, h net.sent]
  refine mem_place.mpr (hx.imp_right fun hx => ?_)
  split
  · exact List.mem_append_left _ hx
  · exact hx

lemma Lossless.send (h : net.Lossless) : (net.send m).Lossless := fun k => by
  rw [fate_send]
  exact h k

lemma Lossless.mem_sendAll (h : net.Lossless) {ms : List M} :
    x ∈ (net.sendAll ms).inFlight ↔ x ∈ ms ∨ x ∈ net.inFlight := by
  induction ms generalizing net with
  | nil => simp [sendAll]
  | cons m ms ih =>
    refine (ih h.send).trans ?_
    rw [h.mem_send, List.mem_cons]
    tauto

end Network

namespace Cluster

/-! ### Requests -/

section

variable {S D T : Type} [DeltaCrdt S D T] {c c' : Cluster S D T} {i j : Nat}
  {pairs : List (Nat × Nat)}

/-- The cluster after digests that ask for an answer have been sent between the pairs that exist. -/
structure Requested (c : Cluster S D T) (pairs : List (Nat × Nat)) (c' : Cluster S D T) : Prop where
  replicas : c'.replicas = c.replicas
  fate : c'.network.fate = c.network.fate
  batches : c'.stats.batches = c.stats.batches
  deltas : c'.stats.deltas = c.stats.deltas
  mem_inFlight : ∀ x, x ∈ c'.network.inFlight ↔ x ∈ c.network.inFlight ∨
    ∃ pair ∈ pairs, ∃ s, c.replicas[pair.1]? = some s ∧ pair.2 < c.replicas.length ∧
      x = .digest pair.1 pair.2 (timestamp s) true

lemma Requested.lossless (hc : c.Requested pairs c') (h : c.network.Lossless) :
    c'.network.Lossless := fun k => by
  rw [hc.fate]
  exact h k

lemma requested_initiate? (h : c.network.Lossless) :
    c.Requested [(i, j)] ((c.initiate? i j).getD c) := by
  have hnone : ¬ (∃ s, c.replicas[i]? = some s ∧ j < c.replicas.length) → c.Requested [(i, j)] c :=
    fun hnot => ⟨rfl, rfl, rfl, rfl, fun x => by
      refine (or_iff_left ?_).symm
      rintro ⟨pair, hpair, s, hs, hj, -⟩
      cases List.mem_singleton.mp hpair
      exact hnot ⟨s, hs, hj⟩⟩
  unfold initiate?
  cases hs : c.replicas[i]? with
  | none => exact hnone (by simp [hs])
  | some s =>
    by_cases hj : j < c.replicas.length
    · simp only [Option.bind_eq_bind, Option.bind_some, if_pos hj, Option.getD_some]
      refine ⟨rfl, Network.fate_send, rfl, rfl, fun x => ?_⟩
      refine h.mem_send.trans (or_comm.trans (or_congr_right ?_))
      simp [hs, hj]
    · simp only [Option.bind_eq_bind, Option.bind_some, if_neg hj, Option.getD_none]
      exact hnone fun ⟨_, _, hj'⟩ => hj hj'

lemma requested_initiateAll (h : c.network.Lossless) (pairs : List (Nat × Nat)) :
    c.Requested pairs (c.initiateAll pairs) := by
  induction pairs generalizing c with
  | nil => exact ⟨rfl, rfl, rfl, rfl, by simp [initiateAll]⟩
  | cons pair pairs ih =>
    obtain ⟨a, b⟩ := pair
    have hfirst : c.Requested [(a, b)] ((c.initiate? a b).getD c) := requested_initiate? h
    have hrest := ih (c := (c.initiate? a b).getD c) (hfirst.lossless h)
    refine ⟨hrest.replicas.trans hfirst.replicas, hrest.fate.trans hfirst.fate,
      hrest.batches.trans hfirst.batches, hrest.deltas.trans hfirst.deltas, fun x => ?_⟩
    rw [initiateAll, List.foldl_cons, ← initiateAll, hrest.mem_inFlight, hfirst.mem_inFlight,
      hfirst.replicas]
    simp only [List.mem_cons, List.not_mem_nil, or_false, exists_eq_or_imp, exists_eq_left]
    exact or_assoc

end

/-! ### What replicas reflect -/

variable {S D T : Type} [CausalTimestamp T D] [DeltaCrdt S D T] {c c' : Cluster S D T} {i : Nat}
  {m x : Message D T} {δ : D}

def Reflects (c : Cluster S D T) (i : Nat) (δ : D) : Prop :=
  ∃ s, c.replicas[i]? = some s ∧ reflects (timestamp s) δ = true

lemma Reflects.of_getElem? {s : S} (h : c.Reflects i δ) (hs : c.replicas[i]? = some s) :
    reflects (timestamp s) δ = true := by
  obtain ⟨s', hs', hδ⟩ := h
  rw [hs] at hs'
  cases hs'
  exact hδ

lemma Reflects.lt_length (h : c.Reflects i δ) : i < c.replicas.length := by
  obtain ⟨s, hs, -⟩ := h
  exact (List.getElem?_eq_some_iff.mp hs).1

@[simp] lemma length_deliver : (c.deliver m).replicas.length = c.replicas.length := by
  cases m with
  | digest => rw [replicas_deliver_digest]
  | deltas => simp [deliver]

@[simp] lemma fate_deliver : (c.deliver m).network.fate = c.network.fate := by
  cases m with
  | digest =>
    rw [deliver]
    split
    · rfl
    · exact Network.fate_sendAll
  | deltas => rfl

lemma Reflects.deliver [Retentive S] (h : c.Reflects i δ) : (c.deliver m).Reflects i δ := by
  obtain ⟨s, hs, hδ⟩ := h
  cases m with
  | digest => exact ⟨s, by rw [replicas_deliver_digest, hs], hδ⟩
  | deltas sender receiver batch =>
    rw [Cluster.deliver]
    by_cases hi : receiver = i
    · exact ⟨(mergeAll s batch).1, by simp [hs, hi], Retentive.reflects_mergeAll hδ⟩
    · exact ⟨s, by simp [hs, hi], hδ⟩

/-- A network that loses nothing keeps what is in flight. -/
lemma mem_inFlight_deliver (h : c.network.Lossless) (hx : x ∈ c.network.inFlight) :
    x ∈ (c.deliver m).network.inFlight := by
  cases m with
  | digest =>
    rw [deliver]
    split
    · exact hx
    · exact h.mem_sendAll.mpr (.inr hx)
  | deltas => exact hx

lemma mem_inFlight_of_answers (h : c.network.Lossless) {s : S} {sender receiver : Nat} {t : T}
    {reply : Bool} (hs : c.replicas[receiver]? = some s)
    (hx : x ∈ c.answers s sender receiver t reply) :
    x ∈ (c.deliver (.digest sender receiver t reply)).network.inFlight := by
  rw [deliver, hs]
  exact h.mem_sendAll.mpr (.inl hx)

lemma Reflects.steps [Retentive S] (h : c.Reflects i δ) (hc : c.Steps c') : c'.Reflects i δ := by
  obtain ⟨m, rest, -, rfl⟩ := hc.exists_deliver
  exact .deliver (c := c.awaiting rest) h

lemma Steps.length_eq (h : c.Steps c') : c'.replicas.length = c.replicas.length := by
  obtain ⟨m, rest, -, rfl⟩ := h.exists_deliver
  exact length_deliver

end Cluster

/-! ### Clusters that lose nothing -/

section

variable {S D T : Type} [CausalTimestamp T D] [DeltaCrdt S D T] [Authored D] [Summary S D]
  {c c' : Cluster S D T} {i j : Nat} {δ : D} {E : List D} {pairs : List (Nat × Nat)}

/-- No digest in flight says more than its sender reflects. -/
def Cluster.Behind (c : Cluster S D T) : Prop :=
  ∀ sender receiver t reply, .digest sender receiver t reply ∈ c.network.inFlight →
    ∀ δ, reflects t δ = true → c.Reflects sender δ

/-- A cluster whose network loses nothing, in which the deltas `E` have been handed out. -/
structure Tracked (E : List D) (c : Cluster S D T) : Prop where
  mirrored : ∃ w, Mirrors c w ∧ w.emitted = E
  lossless : c.network.Lossless
  behind : c.Behind

namespace Tracked

lemma coherent (h : Tracked E c) : Coherent {δ | δ ∈ E} := by
  obtain ⟨w, hw, rfl⟩ := h.mirrored
  exact hw.sound.coherent

lemma exists_summary (h : Tracked E c) {s : S} (hs : c.replicas[i]? = some s) :
    ∃ X ⊆ {δ | δ ∈ E}, Summarizes s X := by
  obtain ⟨w, hw, rfl⟩ := h.mirrored
  refine ⟨{δ | δ ∈ w.delivered i}, hw.sound.delivered_subset i, ?_⟩
  rw [← hw.replica i s hs]
  exact hw.sound.summarizes i

lemma mem_of_inFlight (h : Tracked E c) {sender receiver : Nat} {batch : List D}
    (hbatch : .deltas sender receiver batch ∈ c.network.inFlight) :
    {δ | δ ∈ batch} ⊆ {δ | δ ∈ E} := by
  obtain ⟨w, hw, rfl⟩ := h.mirrored
  exact hw.inFlight _ hbatch

/-- A change of the cluster that takes nothing back, and after which new digests are up to date. -/
lemma change (h : Tracked E c) {E' : List D} (hmirrored : ∃ w, Mirrors c' w ∧ w.emitted = E')
    (hfate : c'.network.fate = c.network.fate)
    (hmono : ∀ i δ, c.Reflects i δ → c'.Reflects i δ)
    (hdigest : ∀ sender receiver t reply,
      .digest sender receiver t reply ∈ c'.network.inFlight →
        .digest sender receiver t reply ∈ c.network.inFlight ∨
          ∃ s, c'.replicas[sender]? = some s ∧ t = timestamp s) : Tracked E' c' where
  mirrored := hmirrored
  lossless k := by
    rw [hfate]
    exact h.lossless k
  behind sender receiver t reply hin δ hδ := by
    rcases hdigest sender receiver t reply hin with hold | ⟨s, hs, rfl⟩
    · exact hmono sender δ (h.behind sender receiver t reply hold δ hδ)
    · exact ⟨s, hs, hδ⟩

variable [Convergent S] [Retentive S]

lemma steps (h : Tracked E c) (hc : c.Steps c') : Tracked E c' := by
  have hmirrored : ∃ w, Mirrors c' w ∧ w.emitted = E := by
    obtain ⟨w, hw, rfl⟩ := h.mirrored
    exact hw.steps hc
  have hmono : ∀ i δ, c.Reflects i δ → c'.Reflects i δ := fun i δ hδ => hδ.steps hc
  obtain ⟨m, rest, hqueue, rfl⟩ := hc.exists_deliver
  refine h.change hmirrored Cluster.fate_deliver hmono ?_
  intro sender receiver t reply hin
  have hrest : ∀ x ∈ rest, x ∈ c.network.inFlight := fun x hx =>
    hqueue ▸ List.mem_cons_of_mem m hx
  cases m with
  | deltas => exact .inl (hrest _ hin)
  | digest sender' receiver' t' reply' =>
    rw [Cluster.replicas_deliver_digest]
    rcases Cluster.mem_of_mem_deliver_digest hin with hold | ⟨s, hs, hanswer⟩
    · exact .inl (hrest _ hold)
    · rcases Cluster.mem_answers.mp hanswer with ⟨batch, -, hbatch⟩ | ⟨-, hback⟩
      · cases hbatch
      · -- who answers does so with the timestamp of this moment
        cases hback
        exact .inr ⟨s, hs, rfl⟩

lemma drain (h : Tracked E c) : Tracked E c.drain :=
  Cluster.drain_induction h fun hc hstep => hc.steps hstep

end Tracked

/-! ### What is on its way -/

def Cluster.Coming (c : Cluster S D T) (i : Nat) (δ : D) : Prop :=
  c.Reflects i δ ∨ ∃ sender batch, .deltas sender i batch ∈ c.network.inFlight ∧ δ ∈ batch

/-- Who reflects all that has come and is coming to the place reflects the delta. -/
def Expected (E : List D) (c : Cluster S D T) (i : Nat) (δ : D) : Prop :=
  ∀ (u : S) (Y : Set D), Y ⊆ {δ | δ ∈ E} → Summarizes u Y →
    (∀ ε ∈ E, c.Coming i ε → reflects (timestamp u) ε = true) → reflects (timestamp u) δ = true

inductive Due (E : List D) (c : Cluster S D T) (i : Nat) (δ : D) : Prop where
  | expected (h : Expected E c i δ)
  /-- A replica that reflects it will be asked for what is missing at the place. -/
  | asking {j : Nat} {t : T} {reply : Bool}
      (hdigest : .digest i j t reply ∈ c.network.inFlight) (h : c.Reflects j δ)
  /-- A replica that reflects it has asked for an answer, which will do the same. -/
  | asked {j : Nat} {t : T} (hdigest : .digest j i t true ∈ c.network.inFlight) (h : c.Reflects j δ)

section

variable [Convergent S] [Retentive S] [Listing S] [OrderedListing S]

omit [Listing S] [OrderedListing S] in
lemma Tracked.coming_steps (h : Tracked E c) (hc : c.Steps c') (hi : i < c.replicas.length)
    (hcoming : c.Coming i δ) : c'.Coming i δ := by
  rcases hcoming with hδ | ⟨sender, batch, hin, hδ⟩
  · exact .inl (hδ.steps hc)
  · obtain ⟨m, rest, hqueue, rfl⟩ := hc.exists_deliver
    rw [hqueue, List.mem_cons] at hin
    rcases hin with rfl | hin
    · -- the batch is merged
      obtain ⟨s, hs⟩ : ∃ s, c.replicas[i]? = some s := ⟨_, List.getElem?_eq_getElem hi⟩
      obtain ⟨X, hX, hsum⟩ := h.exists_summary hs
      have hbatch := h.mem_of_inFlight (hqueue ▸ List.mem_cons_self)
      have hmerged := Convergent.summarizes_mergeAll h.coherent hX hbatch hsum
      refine .inl ⟨(mergeAll s batch).1, by simp [Cluster.deliver, Cluster.awaiting, hs], ?_⟩
      exact Convergent.reflects_of_mem h.coherent (Set.union_subset hX hbatch) hmerged (.inr hδ)
    · have hkept := Cluster.mem_inFlight_deliver (c := c.awaiting rest) (m := m) h.lossless hin
      exact .inr ⟨sender, batch, hkept, hδ⟩

/-- The answer to a digest brings, with what its sender has anyway, all that the answering replica
reflects. -/
lemma Tracked.expected_of_answer (h : Tracked E c) {t : T} {reply : Bool}
    {rest : List (Message D T)} (hqueue : c.network.inFlight = .digest i j t reply :: rest)
    (hδ : δ ∈ E) (hj : c.Reflects j δ) :
    Expected E ((c.awaiting rest).deliver (.digest i j t reply)) i δ := by
  obtain ⟨s, hs, hsδ⟩ := hj
  obtain ⟨X, hX, hsum⟩ := h.exists_summary hs
  intro u Y hY hu hall
  -- what the listing leaves out has come already, and what it has is coming in batches
  refine Convergent.reflects_of_listing (t := t) h.coherent hX hY hsum hu (fun ε hε hknown => ?_)
    (fun ε hε => ?_) hδ hsδ
  · have hin := h.behind i j t reply (hqueue ▸ List.mem_cons_self) ε hknown
    exact hall ε hε (.inl (.deliver (c := c.awaiting rest) hin))
  · have hkin : Kin {δ | δ ∈ E} X X s s := ⟨h.coherent, hX, hX, hsum, hsum⟩
    have hlisted := hε
    rw [← hkin.flatten_batches (c.awaiting rest).batchSize] at hε
    obtain ⟨batch, hbatch, hmem⟩ := List.mem_flatten.mp hε
    refine hall ε (hX (hkin.mem_left hlisted)) (.inr ⟨j, batch, ?_, hmem⟩)
    exact Cluster.mem_inFlight_of_answers (c := c.awaiting rest) h.lossless hs
      (Cluster.mem_answers.mpr (.inl ⟨batch, hbatch, rfl⟩))

lemma Due.steps (hdue : Due E c i δ) (h : Tracked E c) (hc : c.Steps c')
    (hi : i < c.replicas.length) (hδ : δ ∈ E) : Due E c' i δ := by
  have hmono : ∀ ε, c.Coming i ε → c'.Coming i ε := fun ε => h.coming_steps hc hi
  obtain ⟨m, rest, hqueue, rfl⟩ := hc.exists_deliver
  have hkept : ∀ x ∈ rest, x ∈ ((c.awaiting rest).deliver m).network.inFlight := fun x hx =>
    Cluster.mem_inFlight_deliver (c := c.awaiting rest) h.lossless hx
  cases hdue with
  | expected hexpected =>
    exact .expected fun u Y hY hu hall =>
      hexpected u Y hY hu fun ε hε hcoming => hall ε hε (hmono ε hcoming)
  | asking hdigest hj =>
    rw [hqueue, List.mem_cons] at hdigest
    rcases hdigest with rfl | hdigest
    · exact .expected (h.expected_of_answer hqueue hδ hj)
    · exact .asking (hkept _ hdigest) (hj.steps hc)
  | @asked j t hdigest hj =>
    rw [hqueue, List.mem_cons] at hdigest
    rcases hdigest with rfl | hdigest
    · have hs : c.replicas[i]? = some c.replicas[i] := List.getElem?_eq_getElem hi
      have hanswer : .digest i j (timestamp c.replicas[i]) false ∈
          (c.awaiting rest).answers c.replicas[i] j i t true :=
        Cluster.mem_answers.mpr (.inr ⟨rfl, rfl⟩)
      exact .asking (Cluster.mem_inFlight_of_answers (c := c.awaiting rest) h.lossless hs hanswer)
        (hj.steps hc)
    · exact .asked (hkept _ hdigest) (hj.steps hc)

/-- What is due has come once no message is in flight. -/
lemma Due.drain (hdue : Due E c i δ) (h : Tracked E c) (hi : i < c.replicas.length) (hδ : δ ∈ E) :
    c.drain.Reflects i δ := by
  obtain ⟨h', hi', hdue'⟩ : Tracked E c.drain ∧ i < c.drain.replicas.length ∧ Due E c.drain i δ :=
    Cluster.drain_induction (P := fun c => Tracked E c ∧ i < c.replicas.length ∧ Due E c i δ)
      ⟨h, hi, hdue⟩ fun ⟨hc, hi, hdue⟩ hstep =>
        ⟨hc.steps hstep, hstep.length_eq ▸ hi, hdue.steps hc hstep hi hδ⟩
  have hempty : c.drain.network.inFlight = [] := Cluster.inFlight_drain
  cases hdue' with
  | expected hexpected =>
    have hs : c.drain.replicas[i]? = some c.drain.replicas[i] := List.getElem?_eq_getElem hi'
    obtain ⟨X, hX, hsum⟩ := h'.exists_summary hs
    refine ⟨_, hs, hexpected _ X hX hsum ?_⟩
    rintro ε - (hε | ⟨sender, batch, hin, -⟩)
    · exact hε.of_getElem? hs
    · simp [hempty] at hin
  | asking hdigest => simp [hempty] at hdigest
  | asked hdigest => simp [hempty] at hdigest

/-! ### Exchanges -/

omit [Convergent S] [Retentive S] [Listing S] [OrderedListing S] in
lemma Tracked.initiateAll (h : Tracked E c) (pairs : List (Nat × Nat)) :
    Tracked E (c.initiateAll pairs) := by
  have hc := Cluster.requested_initiateAll h.lossless pairs
  obtain ⟨w, hw, hE⟩ := h.mirrored
  refine h.change ⟨w, hw.initiateAll pairs, hE⟩ hc.fate (fun i δ hδ => ?_)
    fun sender receiver t reply hin => ?_
  · rwa [Cluster.Reflects, hc.replicas]
  · rcases (hc.mem_inFlight _).mp hin with hold | ⟨pair, -, s, hs, -, heq⟩
    · exact .inl hold
    · cases heq
      exact .inr ⟨s, by rw [hc.replicas, hs], rfl⟩

/-- After an exchange, each of the two reflects what the other one has reflected, and nothing is
taken back. -/
lemma Tracked.reflects_of_exchange (h : Tracked E c)
    (hpair : i = j ∨ (i, j) ∈ pairs ∨ (j, i) ∈ pairs) (hi : i < c.replicas.length) (hδ : δ ∈ E)
    (hj : c.Reflects j δ) : (c.initiateAll pairs).drain.Reflects i δ := by
  have hc := Cluster.requested_initiateAll h.lossless pairs
  have hj' : (c.initiateAll pairs).Reflects j δ := by rwa [Cluster.Reflects, hc.replicas]
  have hdue : Due E (c.initiateAll pairs) i δ := by
    rcases hpair with rfl | hpair | hpair
    · exact .expected fun u Y hY hu hall => hall δ hδ (.inl hj')
    · have hs : c.replicas[i]? = some c.replicas[i] := List.getElem?_eq_getElem hi
      have hlt : j < c.replicas.length := hj.lt_length
      exact .asking ((hc.mem_inFlight _).mpr (.inr ⟨_, hpair, _, hs, hlt, rfl⟩)) hj'
    · obtain ⟨s, hs, -⟩ := hj
      exact .asked ((hc.mem_inFlight _).mpr (.inr ⟨_, hpair, s, hs, hi, rfl⟩)) hj'
  exact hdue.drain (h.initiateAll pairs) (hc.replicas ▸ hi) hδ

end

end

end DeltaRing.Simulation
