import DeltaRing.Simulation.Cluster
import DeltaRing.Proofs.Replication.Family
import DeltaRing.Proofs.Replication.Run
import Mathlib.Logic.Relation

/-!
Simulated clusters are runs of replicas.

Whatever a driver does with a cluster, and whatever its network loses, doubles and reorders, the
replicas are those of some run, and all deltas in flight have been handed out in it. So what holds
of the replicas of every run holds of the replicas of every cluster.
-/

namespace DeltaRing

namespace World

variable {ι S D T : Type} [DecidableEq ι] [DeltaCrdt S D T] {w : World ι S D} {i j : ι}
  {δs : List D}

def receiveAll (w : World ι S D) (i : ι) (δs : List D) : World ι S D :=
  δs.foldl (fun w δ => w.receive i δ) w

@[simp] lemma emitted_receiveAll : (w.receiveAll i δs).emitted = w.emitted := by
  induction δs generalizing w with
  | nil => rfl
  | cons δ δs ih => exact ih (w := w.receive i δ)

lemma replica_receiveAll_self : (w.receiveAll i δs).replica i = (mergeAll (w.replica i) δs).1 := by
  induction δs generalizing w with
  | nil => rfl
  | cons δ δs ih =>
    rw [receiveAll, List.foldl_cons, ← receiveAll, ih, mergeAll_cons, receive, replica_set_self]

lemma replica_receiveAll_of_ne (h : j ≠ i) : (w.receiveAll i δs).replica j = w.replica j := by
  induction δs generalizing w with
  | nil => rfl
  | cons δ δs ih =>
    rw [receiveAll, List.foldl_cons, ← receiveAll, ih, receive, replica_set_of_ne h]

lemma Sound.receiveAll [Authored D] [Summary S D] [CausalTimestamp T D] [Convergent S]
    {actor : ι ↪ Actor} (h : Sound actor w) (hδs : {δ | δ ∈ δs} ⊆ {δ | δ ∈ w.emitted}) :
    Sound actor (w.receiveAll i δs) := by
  induction δs generalizing w with
  | nil => exact h
  | cons δ δs ih =>
    exact ih (h.receive (hδs (by simp))) fun ε hε => hδs (List.mem_cons_of_mem δ hε)

end World

namespace Simulation

/-! ### The network adds nothing of its own -/

namespace Network

variable {M : Type} {net : Network M} {m x : M}

lemma mem_place {jump : Option Nat} {queue : List M} :
    x ∈ place m jump queue ↔ x = m ∨ x ∈ queue := by
  cases jump with
  | none => simp [place, or_comm]
  | some n =>
    rw [place, List.mem_append, List.mem_cons, or_left_comm, ← List.mem_append,
      List.take_append_drop]

lemma mem_of_mem_send (h : x ∈ (net.send m).inFlight) : x = m ∨ x ∈ net.inFlight := by
  unfold send at h
  simp only at h
  split at h
  · exact .inr h
  · rcases mem_place.mp h with h | h
    · exact .inl h
    · split at h
      · rcases List.mem_append.mp h with h | h
        · exact .inr h
        · exact .inl (List.mem_singleton.mp h)
      · exact .inr h

lemma mem_of_mem_sendAll {ms : List M} (h : x ∈ (net.sendAll ms).inFlight) :
    x ∈ ms ∨ x ∈ net.inFlight := by
  induction ms generalizing net with
  | nil => exact .inr h
  | cons m ms ih =>
    have hrest : x ∈ ((net.send m).sendAll ms).inFlight := h
    rcases ih hrest with h | h
    · exact .inl (List.mem_cons_of_mem m h)
    · rcases mem_of_mem_send h with rfl | h
      · exact .inl List.mem_cons_self
      · exact .inr h

end Network

namespace Message

variable {D T : Type}

def carried : Message D T → List D
  | digest .. => []
  | deltas _ _ batch => batch

end Message

namespace Cluster

variable {S D T : Type} [CausalTimestamp T D] [DeltaCrdt S D T] {c c' : Cluster S D T}
  {x : Message D T} {s : S} {sender receiver : Nat} {t : T} {reply : Bool}

/-! ### Answers -/

lemma mem_answers : x ∈ c.answers s sender receiver t reply ↔
    (∃ batch ∈ batches s t c.batchSize, .deltas receiver sender batch = x) ∨
      reply = true ∧ x = .digest receiver sender (timestamp s) false := by
  cases reply <;> simp [answers]

/-- A digest brings nothing into flight but answers of its receiver. -/
lemma mem_of_mem_deliver_digest
    (hx : x ∈ (c.deliver (.digest sender receiver t reply)).network.inFlight) :
    x ∈ c.network.inFlight ∨
      ∃ s, c.replicas[receiver]? = some s ∧ x ∈ c.answers s sender receiver t reply := by
  rw [deliver] at hx
  split at hx
  · exact .inl hx
  · rename_i s hs
    rcases Network.mem_of_mem_sendAll hx with hx | hx
    · exact .inr ⟨s, hs, hx⟩
    · exact .inl hx

lemma replicas_deliver_digest :
    (c.deliver (.digest sender receiver t reply)).replicas = c.replicas := by
  rw [deliver]
  split <;> rfl

/-! ### Draining -/

def Steps (c c' : Cluster S D T) : Prop := c.processOne? = some c'

/-- The cluster once a message has left the network, and `rest` is still in flight. -/
def awaiting (c : Cluster S D T) (rest : List (Message D T)) : Cluster S D T :=
  { c with network := { c.network with inFlight := rest } }

lemma Steps.exists_deliver (h : Steps c c') :
    ∃ m rest, c.network.inFlight = m :: rest ∧ c' = (c.awaiting rest).deliver m := by
  unfold Steps processOne? Network.receive? at h
  split at h
  · cases h
  · rename_i m network hnext
    cases h
    split at hnext
    · cases hnext
    · rename_i m' rest hqueue
      cases hnext
      exact ⟨m, rest, hqueue, rfl⟩

lemma inFlight_of_processOne?_eq_none (h : c.processOne? = none) : c.network.inFlight = [] := by
  unfold processOne? Network.receive? at h
  split at h
  · rename_i hnext
    split at hnext
    · assumption
    · cases hnext
  · cases h

/-- Draining comes to an end, and nothing is in flight then. -/
lemma steps_drain (c : Cluster S D T) :
    Relation.ReflTransGen Steps c c.drain ∧ c.drain.processOne? = none := by
  induction c using drain.induct with
  | case1 c hc =>
    rw [drain, hc]
    exact ⟨.refl, hc⟩
  | case2 c c' hc ih =>
    rw [drain, hc]
    exact ⟨.head hc ih.1, ih.2⟩

lemma inFlight_drain : c.drain.network.inFlight = [] :=
  inFlight_of_processOne?_eq_none (steps_drain c).2

lemma drain_induction {P : Cluster S D T → Prop} (h : P c)
    (hstep : ∀ {c c' : Cluster S D T}, P c → Steps c c' → P c') : P c.drain := by
  have hrun := (steps_drain c).1
  generalize c.drain = c' at hrun
  induction hrun with
  | refl => exact h
  | tail _ hlast ih => exact hstep ih hlast

end Cluster

/-! ### What a driver can do -/

/-- A move of the driver of a cluster. Deltas to push are picked from what operations have handed
out so far. -/
inductive Move (O : Type) where
  | operate (i : Nat) (op : O)
  | push (sender receiver : Nat) (picks : List Nat)
  | initiate (sender receiver : Nat)
  | process
  | ringRound
  | fullRound

/-- A cluster, and all that operations on it have handed out. -/
structure Session (S D T : Type) where
  cluster : Cluster S D T
  log : List D

namespace Session

variable {S D T O R K : Type} [CausalTimestamp T D] [DeltaCrdt S D T] [Operable S D O R K]

/-- A move that the cluster refuses changes nothing. -/
def step (x : Session S D T) : Move O → Session S D T
  | .operate i op =>
    match x.cluster.operate? i op with
    | none => x
    | some (c, _, δs) => ⟨c, x.log ++ δs⟩
  | .push sender receiver picks =>
    { x with cluster :=
        (x.cluster.push? sender receiver (picks.filterMap (x.log[·]?))).getD x.cluster }
  | .initiate sender receiver =>
    { x with cluster := (x.cluster.initiate? sender receiver).getD x.cluster }
  | .process => { x with cluster := x.cluster.processOne?.getD x.cluster }
  | .ringRound => { x with cluster := x.cluster.ringRound }
  | .fullRound => { x with cluster := x.cluster.fullRound }

def run (n batchSize : Nat) (fate : Nat → Fate) (moves : List (Move O)) : Session S D T :=
  moves.foldl step ⟨.ofSize n batchSize fate, []⟩

lemma run_append (n batchSize : Nat) (fate : Nat → Fate) (ms ms' : List (Move O)) :
    (run n batchSize fate (ms ++ ms') : Session S D T)
      = ms'.foldl step (run n batchSize fate ms) := List.foldl_append

end Session

/-! ### Clusters are runs -/

lemma timestamp_eq_of_isConverged {S D T : Type} [DeltaCrdt S D T] [DecidableEq T]
    {c : Cluster S D T} {s s' : S} (h : c.isConverged = true) (hs : s ∈ c.replicas)
    (hs' : s' ∈ c.replicas) : timestamp s = timestamp s' := by
  unfold Cluster.isConverged at h
  split at h
  · rename_i hempty
    rw [hempty] at hs
    cases hs
  · rename_i first rest hreplicas
    have hfirst : ∀ s ∈ c.replicas, timestamp s = timestamp first := by
      intro s hs
      rw [hreplicas] at hs
      rcases List.mem_cons.mp hs with rfl | hs
      · rfl
      · simpa using List.all_eq_true.mp h s hs
    rw [hfirst s hs, hfirst s' hs']

/-- The replicas of a cluster act under different names. -/
def replicaActors : Nat ↪ Actor where
  toFun := Cluster.replicaName
  inj' i j h := by
    have hrepr : Nat.repr i = Nat.repr j := by
      unfold Cluster.replicaName at h
      simpa [toString, instToStringNat] using h
    have hdigits : Nat.toDigits 10 i = Nat.toDigits 10 j := by
      rw [← Nat.toList_repr, ← Nat.toList_repr, hrepr]
    rw [← Nat.ofDigitChars_ten_toDigits (n := i), hdigits, Nat.ofDigitChars_ten_toDigits]

variable {S D T O R K : Type} [Authored D] [Summary S D] {c c' : Cluster S D T}
  {w : World Nat S D} {i sender receiver : Nat} {δs : List D}

/-- The cluster's replicas are those of a sound world, in which all deltas in flight have been
handed out. -/
structure Mirrors (c : Cluster S D T) (w : World Nat S D) : Prop where
  sound : World.Sound replicaActors w
  replica : ∀ i s, c.replicas[i]? = some s → w.replica i = s
  inFlight : ∀ m ∈ c.network.inFlight, ∀ δ ∈ m.carried, δ ∈ w.emitted

lemma Mirrors.send (h : Mirrors c w) {m : Message D T} (hm : ∀ δ ∈ m.carried, δ ∈ w.emitted) :
    Mirrors (c.send m) w where
  sound := h.sound
  replica := h.replica
  inFlight m' hm' := by
    rcases Network.mem_of_mem_send hm' with rfl | hm'
    · exact hm
    · exact h.inFlight m' hm'

lemma Mirrors.push? (h : Mirrors c w) (hδs : ∀ δ ∈ δs, δ ∈ w.emitted)
    (hc : c.push? sender receiver δs = some c') : Mirrors c' w := by
  unfold Cluster.push? at hc
  split at hc
  · cases hc
    exact h
  · split at hc
    · cases hc
      obtain ⟨hsound, hreplica, hinFlight⟩ := h.send (m := .deltas sender receiver δs) hδs
      exact ⟨hsound, hreplica, hinFlight⟩
    · cases hc

variable [DeltaCrdt S D T]

lemma Mirrors.initiate? (h : Mirrors c w) (hc : c.initiate? sender receiver = some c') :
    Mirrors c' w := by
  simp only [Cluster.initiate?, Option.bind_eq_bind, Option.bind_eq_some_iff] at hc
  obtain ⟨s, -, hc⟩ := hc
  split at hc
  · cases hc
    obtain ⟨hsound, hreplica, hinFlight⟩ :=
      h.send (m := .digest sender receiver (timestamp s) true) (by simp [Message.carried])
    exact ⟨hsound, hreplica, hinFlight⟩
  · cases hc

variable [CausalTimestamp T D] [laws : Convergent S]

lemma mirrors_ofSize (n batchSize : Nat) (fate : Nat → Fate) :
    Mirrors (Cluster.ofSize n batchSize fate : Cluster S D T) World.start where
  sound := World.sound_start
  replica i s h := by
    have := List.mem_of_getElem? h
    rw [Cluster.ofSize, List.mem_replicate] at this
    exact this.2.symm
  inFlight m hm := by simp [Cluster.ofSize, Network.quiet] at hm

/-! ### Messages -/

omit [Authored D] [Summary S D] laws in
lemma mem_deltasSince_of_mem_batches {s : S} {ts : T} {limit : Nat} {batch : List D} {δ : D}
    (hbatch : batch ∈ batches s ts limit) (hδ : δ ∈ batch) :
    ∃ cursor, δ ∈ deltasSince s (some cursor) := by
  unfold batches at hbatch
  generalize (deltasSince s (some ts)).length = fuel at hbatch
  induction fuel generalizing ts with
  | zero => cases hbatch
  | succ fuel ih =>
    rw [batchesWithin] at hbatch
    split at hbatch
    · cases hbatch
    · rename_i first cursor hnext hfirst
      rcases List.mem_cons.mp hbatch with rfl | hbatch
      · refine ⟨ts, List.mem_of_mem_take (i := max limit 1) ?_⟩
        have := congrArg Prod.fst hfirst
        rw [nextBatch] at this
        simp only at this
        rwa [this]
      · exact ih hbatch

lemma Mirrors.answers (h : Mirrors c w) {s : S} (hs : c.replicas[receiver]? = some s) {ts : T}
    {reply : Bool} {m : Message D T} (hm : m ∈ c.answers s sender receiver ts reply) :
    ∀ δ ∈ m.carried, δ ∈ w.emitted := by
  intro δ hδ
  rcases Cluster.mem_answers.mp hm with ⟨batch, hbatch, rfl⟩ | ⟨-, rfl⟩
  · obtain ⟨cursor, hlisted⟩ := mem_deltasSince_of_mem_batches hbatch hδ
    rw [← h.replica receiver s hs] at hlisted
    exact h.sound.delivered_subset receiver
      (Convergent.mem_of_mem_deltasSince (h.sound.summarizes receiver) hlisted)
  · cases hδ

/-- A message that has left the network takes the cluster from one world to the next. -/
lemma Mirrors.deliver (h : Mirrors c w) {m : Message D T} (hm : ∀ δ ∈ m.carried, δ ∈ w.emitted) :
    ∃ w', Mirrors (c.deliver m) w' ∧ w'.emitted = w.emitted := by
  cases m with
  | digest sender receiver ts reply =>
    refine ⟨w, ⟨h.sound, fun i s hs => ?_, fun m' hm' => ?_⟩, rfl⟩
    · rw [Cluster.replicas_deliver_digest] at hs
      exact h.replica i s hs
    · rcases Cluster.mem_of_mem_deliver_digest hm' with hm' | ⟨s, hs, hm'⟩
      · exact h.inFlight m' hm'
      · exact h.answers hs hm'
  | deltas sender receiver batch =>
    refine ⟨w.receiveAll receiver batch, ⟨h.sound.receiveAll hm, fun i s hs => ?_, ?_⟩, by simp⟩
    · rw [Cluster.deliver, List.getElem?_modify, Option.map_eq_map, Option.map_eq_some_iff] at hs
      obtain ⟨s₀, hs₀, rfl⟩ := hs
      by_cases hi : i = receiver
      · subst hi
        rw [World.replica_receiveAll_self, h.replica i s₀ hs₀, if_pos rfl]
      · rw [World.replica_receiveAll_of_ne hi, h.replica i s₀ hs₀, if_neg (Ne.symm hi)]
    · intro m' hm' δ hδ
      rw [World.emitted_receiveAll]
      exact h.inFlight m' hm' δ hδ

lemma Mirrors.steps (h : Mirrors c w) (hc : c.Steps c') :
    ∃ w', Mirrors c' w' ∧ w'.emitted = w.emitted := by
  obtain ⟨m, rest, hqueue, rfl⟩ := hc.exists_deliver
  have hrest : Mirrors (c.awaiting rest) w :=
    ⟨h.sound, h.replica, fun m' hm' => h.inFlight m' (hqueue ▸ List.mem_cons_of_mem _ hm')⟩
  exact hrest.deliver (h.inFlight m (hqueue ▸ List.mem_cons_self))

/-! ### Rounds -/

lemma Mirrors.drain (h : Mirrors c w) : ∃ w', Mirrors c.drain w' ∧ w'.emitted = w.emitted := by
  refine Cluster.drain_induction (P := fun c => ∃ w', Mirrors c w' ∧ w'.emitted = w.emitted)
    ⟨w, h, rfl⟩ ?_
  rintro c c' ⟨w₁, h₁, heq₁⟩ hc
  obtain ⟨w₂, h₂, heq₂⟩ := h₁.steps hc
  exact ⟨w₂, h₂, heq₂.trans heq₁⟩

omit laws [CausalTimestamp T D] in
lemma Mirrors.initiateAll (h : Mirrors c w) (pairs : List (Nat × Nat)) :
    Mirrors (c.initiateAll pairs) w := by
  induction pairs generalizing c with
  | nil => exact h
  | cons pair pairs ih =>
    refine ih (c := (c.initiate? pair.1 pair.2).getD c) ?_
    cases hc : c.initiate? pair.1 pair.2 with
    | none => exact h
    | some c' => exact h.initiate? hc

variable [Operable S D O R K] [operations : HandsOutCoherently S]

include laws operations in
lemma Mirrors.operate? (h : Mirrors c w) {op : O} {output : R}
    (hc : c.operate? i op = some (c', output, δs)) :
    ∃ w', Mirrors c' w' ∧ w'.emitted = w.emitted ++ δs := by
  simp only [Cluster.operate?, Option.bind_eq_bind, Option.bind_eq_some_iff] at hc
  obtain ⟨s, hs, hc⟩ := hc
  cases hc
  have hi := h.replica i s hs
  refine ⟨w.operate replicaActors i op, ⟨h.sound.operate op, fun j s' hs' => ?_, ?_⟩, ?_⟩
  · rw [World.operate]
    simp only [World.emit]
    by_cases hj : j = i
    · subst hj
      rw [World.replica_set_self, hi]
      rw [List.getElem?_set_self (List.getElem?_eq_some_iff.mp hs).1, Option.some.injEq] at hs'
      exact hs'
    · rw [World.replica_set_of_ne hj]
      rw [List.getElem?_set_ne (Ne.symm hj)] at hs'
      exact h.replica j s' hs'
  · exact fun m hm δ hδ => List.mem_append_left _ (h.inFlight m hm δ hδ)
  · rw [World.operate, hi]
    rfl

include laws operations in
/-- Every move of the driver is a move of the world. -/
lemma Mirrors.step {x : Session S D T} (h : Mirrors x.cluster w) (hlog : w.emitted = x.log)
    (move : Move O) : ∃ w', Mirrors (x.step move).cluster w' ∧ w'.emitted = (x.step move).log := by
  cases move with
  | operate i op =>
    rw [Session.step]
    split
    · exact ⟨w, h, hlog⟩
    · rename_i c output δs hc
      obtain ⟨w', h', heq⟩ := h.operate? hc
      exact ⟨w', h', by rw [heq, hlog]⟩
  | push sender receiver picks =>
    refine ⟨w, ?_, hlog⟩
    simp only [Session.step]
    cases hc : x.cluster.push? sender receiver (picks.filterMap (x.log[·]?)) with
    | none => exact h
    | some c' =>
      refine h.push? (fun δ hδ => ?_) hc
      obtain ⟨n, -, hn⟩ := List.mem_filterMap.mp hδ
      rw [hlog]
      exact List.mem_of_getElem? hn
  | initiate sender receiver =>
    refine ⟨w, ?_, hlog⟩
    simp only [Session.step]
    cases hc : x.cluster.initiate? sender receiver with
    | none => exact h
    | some c' => exact h.initiate? hc
  | process =>
    simp only [Session.step]
    cases hc : x.cluster.processOne? with
    | none => exact ⟨w, h, hlog⟩
    | some c' =>
      obtain ⟨w', h', heq⟩ := h.steps hc
      exact ⟨w', h', heq.trans hlog⟩
  | ringRound =>
    simp only [Session.step, Cluster.ringRound]
    split
    · exact ⟨w, h, hlog⟩
    · obtain ⟨w', h', heq⟩ := (h.initiateAll _).drain
      exact ⟨w', h', heq.trans hlog⟩
  | fullRound =>
    obtain ⟨w', h', heq⟩ := (h.initiateAll (Cluster.allPairs x.cluster.replicas.length)).drain
    exact ⟨w', h', heq.trans hlog⟩

include laws operations in
/-- **Clusters are runs.** -/
theorem mirrors_run (n batchSize : Nat) (fate : Nat → Fate) (moves : List (Move O)) :
    ∃ w, Mirrors (Session.run n batchSize fate moves : Session S D T).cluster w ∧
      w.emitted = (Session.run n batchSize fate moves : Session S D T).log := by
  induction moves using List.reverseRecOn with
  | nil => exact ⟨World.start, mirrors_ofSize n batchSize fate, rfl⟩
  | append_singleton moves move ih =>
    obtain ⟨w, h, hlog⟩ := ih
    rw [Session.run_append]
    exact h.step hlog move

lemma Mirrors.eq_of_isConverged [DecidableEq T] {s s' : S} (h : Mirrors c w)
    (hc : c.isConverged = true) (hs : s ∈ c.replicas) (hs' : s' ∈ c.replicas) : s = s' := by
  have ht := timestamp_eq_of_isConverged hc hs hs'
  obtain ⟨i, hi⟩ := List.mem_iff_getElem?.mp hs
  obtain ⟨j, hj⟩ := List.mem_iff_getElem?.mp hs'
  rw [← h.replica i s hi, ← h.replica j s' hj] at ht ⊢
  exact h.sound.replica_eq_of_timestamp_eq ht

open World in
/-- **The timestamp determines the state.** In every run, replicas with equal timestamps are equal,
and so all replicas of a simulated cluster are equal if it takes itself to have converged. -/
theorem eq_of_equal_timestamps {ι : Type} [DecidableEq ι] (F : Family) [DecidableEq F.Timestamp]
    (actor : ι ↪ Actor) (events : List (Event ι F.Operation F.Timestamp)) (n batchSize : Nat)
    (fate : Nat → Fate) (moves : List (Move F.Operation)) :
    let w : World ι F.State F.Delta := World.run actor events
    let c : Cluster F.State F.Delta F.Timestamp := (Session.run n batchSize fate moves).cluster
    (∀ i j, timestamp (w.replica i) = timestamp (w.replica j) → w.replica i = w.replica j) ∧
    (c.isConverged = true → ∀ s ∈ c.replicas, ∀ s' ∈ c.replicas, s = s') := by
  intro w c
  have h : Sound actor w := sound_run actor events
  obtain ⟨wₘ, hmirrors, -⟩ := mirrors_run (S := F.State) n batchSize fate moves
  exact ⟨fun i j ht => h.replica_eq_of_timestamp_eq ht,
    fun hc s hs s' hs' => hmirrors.eq_of_isConverged hc hs hs'⟩

def askForAddition : List (Move (Family.orSet Nat).Operation) :=
  [.operate 0 (OrSetOperation.add 7), .initiate 1 0, .process, .process]

theorem eq_after_asking :
    let c : Cluster (OrSet Nat) (OrSetDelta Nat) CausalContext :=
      (Session.run 2 1 (fun _ => ⟨false, false, none⟩) askForAddition :
        Session (Family.orSet Nat).State _ _).cluster
    c.replicas.map OrSet.items = [[7], [7]] ∧ ∀ s ∈ c.replicas, ∀ s' ∈ c.replicas, s = s' :=
  ⟨by decide +kernel, (@eq_of_equal_timestamps Bool _ (.orSet Nat)
    (inferInstanceAs (DecidableEq CausalContext)) twoActors [] 2 1 _ askForAddition).2
    (by decide +kernel)⟩

end Simulation

end DeltaRing
