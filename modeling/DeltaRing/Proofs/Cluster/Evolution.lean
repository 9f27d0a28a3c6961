import DeltaRing.Cluster.Operation
import DeltaRing.Cluster.Round
import DeltaRing.Proofs.Exchange.Party
import DeltaRing.Proofs.Node.Resume
import Mathlib.Order.Defs.Unbundled

/-!
What becomes of the nodes of a cluster.

A cascade of pushes or a round of anti-entropy is made of many actions at many nodes, and whatever
comes of it, each node has only taken steps, and who serves where is as before. A relation that
every single action keeps is kept by all that is made of them; how deep the calls are nested and
what has been parked before does not matter for that.
-/

namespace DeltaRing

open DeltaRing.Action Relation

namespace Action

/-! ### Relations that actions keep -/

variable {σ α β : Type} {R : σ → σ → Prop} [IsPreorder σ R] {a : Action σ α}

/-- Whatever the world is, the world after the action stands in the relation to it. -/
def Keeps (R : σ → σ → Prop) (a : Action σ α) : Prop := ∀ s, R s (exec a s).2

lemma keeps_pure (x : α) : Keeps R (pure x : Action σ α) := fun s => refl_of R s

lemma keeps_throw (e : ClusterError) : Keeps R (throw e : Action σ α) := fun s => refl_of R s

lemma keeps_get : Keeps R (get : Action σ σ) := fun s => refl_of R s

lemma keeps_liftExcept (x : Except ClusterError α) : Keeps R (liftM x : Action σ α) := fun s => by
  rw [exec_liftExcept]
  exact refl_of R s

omit [IsPreorder σ R] in
lemma keeps_modify {f : σ → σ} (hf : ∀ s, R s (f s)) : Keeps R (modify f : Action σ Unit) := hf

/-- One action after another, where the second is met only as the first leaves the world. -/
lemma related_bind {f : α → Action σ β} {s : σ} (ha : R s (exec a s).2)
    (hf : ∀ x s', exec a s = (.ok x, s') → R s' (exec (f x) s').2) :
    R s (exec (a >>= f) s).2 := by
  rw [exec_bind]
  cases hexec : exec a s with
  | mk r s' =>
    rw [hexec] at ha
    cases r with
    | error e => exact ha
    | ok x => exact trans_of R ha (hf x s' hexec)

lemma Keeps.bind {f : α → Action σ β} (ha : Keeps R a) (hf : ∀ x, Keeps R (f x)) :
    Keeps R (a >>= f) := fun s => related_bind (ha s) fun x s' _ => hf x s'

omit [IsPreorder σ R] in
lemma Keeps.attempt (ha : Keeps R a) : Keeps R a.attempt := ha

lemma keeps_foldlM {f : β → α → Action σ β} (hf : ∀ b x, Keeps R (f b x)) (l : List α) (b : β) :
    Keeps R (l.foldlM f b) := by
  induction l generalizing b with
  | nil => exact keeps_pure b
  | cons x l ih =>
    rw [List.foldlM_cons]
    exact (hf b x).bind ih

lemma keeps_forM {f : α → Action σ PUnit} (hf : ∀ x, Keeps R (f x)) (l : List α) :
    Keeps R (l.forM f) := by
  induction l with
  | nil => exact keeps_pure _
  | cons x l ih => exact (hf x).bind fun _ => ih

/-- The same of actions that cannot fail. -/
def KeepsState (R : σ → σ → Prop) (a : StateM σ α) : Prop := ∀ s, R s (a.run s).2

omit [IsPreorder σ R] in
lemma Keeps.run (ha : Keeps R a) : KeepsState R a.run := ha

omit [IsPreorder σ R] in
lemma KeepsState.lift {a : StateM σ α} (ha : KeepsState R a) : Keeps R (liftM a : Action σ α) := ha

lemma keepsState_pure (x : α) : KeepsState R (pure x : StateM σ α) := fun s => refl_of R s

lemma keepsState_get : KeepsState R (get : StateM σ σ) := fun s => refl_of R s

lemma KeepsState.bind {a : StateM σ α} {f : α → StateM σ β} (ha : KeepsState R a)
    (hf : ∀ x, KeepsState R (f x)) : KeepsState R (a >>= f) := fun s =>
  trans_of R (ha s) (hf _ _)

lemma keepsState_forM {f : α → StateM σ PUnit} (hf : ∀ x, KeepsState R (f x)) (l : List α) :
    KeepsState R (l.forM f) := by
  induction l with
  | nil => exact keepsState_pure _
  | cons x l ih => exact (hf x).bind fun _ => ih

end Action

namespace Station

/-! ### Senders -/

variable {σ : Type} {st : Station σ} {R : σ → σ → Prop}

lemma keeps_noting [IsPreorder σ R] {peer : NodeInfo} {p : Push}
    (hfailures : ∀ f, KeepsState R (st.modifyFailures f))
    (hpark : ∀ p, KeepsState R (st.park peer p)) (r : Except ClusterError MergeResult) :
    Keeps R (st.noting peer p r) := by
  cases r with
  | ok result => exact (hfailures _).lift.bind fun _ => keeps_pure result
  | error e =>
    unfold noting
    dsimp only
    split
    · exact (hfailures _).lift.bind fun _ => (hpark _).lift.bind fun _ => keeps_throw e
    · exact keeps_throw e

/-- What a sender does directly keeps the relation. -/
structure Respects (st : Station σ) (R : σ → σ → Prop) : Prop where
  setOutbox : ∀ outbox s, R s (st.setOutbox outbox s)
  connect : ∀ peer, Keeps R (st.connect peer)
  push : ∀ peer p, Keeps R (st.push peer p)

namespace Respects

lemma keepsState_modifyRetry (h : st.Respects R)
    (f : RetryBuffer NodeId Push → RetryBuffer NodeId Push) : KeepsState R (st.modifyRetry f) :=
  fun s => h.setOutbox _ s

lemma keepsState_modifyFailures (h : st.Respects R) (f : Nat → FailureDetector → FailureDetector) :
    KeepsState R (st.modifyFailures f) := fun s => h.setOutbox _ s

variable [IsPreorder σ R]

lemma keeps_send (h : st.Respects R) (peer : NodeInfo) (p : Push) : Keeps R (st.send peer p) :=
  (h.connect peer).bind fun _ => h.push peer p

lemma keepsState_replay (h : st.Respects R) (peer : NodeInfo) (ps : List (TaggedPush Push)) :
    KeepsState R (st.replay peer ps) := by
  induction ps with
  | nil => exact keepsState_pure 0
  | cons p ps ih =>
    rw [replay]
    refine (h.keeps_send peer p.payload).run.bind fun r => ?_
    cases r with
    | ok _ => exact ih.bind fun _ => keepsState_pure _
    | error _ => exact (h.keepsState_modifyRetry _).bind fun _ => keepsState_pure _

lemma keepsState_flush (h : st.Respects R) (peer : NodeInfo) : KeepsState R (st.flush peer) :=
  keepsState_get.bind fun _ => (h.keepsState_modifyRetry _).bind fun _ => h.keepsState_replay peer _

lemma keeps_noted (h : st.Respects R) (peer : NodeInfo) (p : Push)
    (r : Except ClusterError MergeResult) : Keeps R (st.noting peer p r) :=
  keeps_noting h.keepsState_modifyFailures (fun _ => h.keepsState_modifyRetry _) r

lemma keeps_deliver (h : st.Respects R) (peer : NodeInfo) (p : Push) :
    Keeps R (st.deliver peer p) :=
  (h.keepsState_flush peer).lift.bind fun _ => (keeps_liftExcept _).bind fun _ =>
    (h.keeps_send peer p).attempt.bind fun r => h.keeps_noted peer p r

lemma keepsState_deliverAll (h : st.Respects R) (p : Push) (peers : List NodeInfo) :
    KeepsState R (st.deliverAll p peers) := by
  induction peers with
  | nil => exact keepsState_pure _
  | cons peer peers ih =>
    refine (h.keeps_deliver peer p).run.bind fun r => ih.bind fun _ => ?_
    cases r <;> exact keepsState_pure _

lemma keeps_pushAll (h : st.Respects R) (subject : Subject) (peers : List NodeInfo)
    (deltas : Payload) (ctx : OperationContext) :
    Keeps R (st.pushAll subject peers deltas ctx) := by
  refine keeps_get.bind fun s => ?_
  refine (keeps_forM (fun peer => (h.keepsState_modifyRetry _).lift) _).bind fun _ => ?_
  refine (h.keepsState_deliverAll _ _).lift.bind fun r => ?_
  obtain ⟨delivered, _ | e⟩ := r
  · exact keeps_pure delivered
  · exact keeps_throw e

lemma keeps_propagate (h : st.Respects R) (subject : Subject) (deltas : Payload)
    (ctx : OperationContext) : Keeps R (st.propagate subject deltas ctx) := by
  refine (keeps_liftExcept _).bind fun _ => ?_
  split
  · exact keeps_pure 0
  · exact keeps_get.bind fun _ => h.keeps_pushAll subject _ deltas ctx

lemma keeps_target (st : Station σ) (replica : ReplicaId) (ctx : OperationContext) :
    Keeps R (st.target replica ctx) := by
  unfold target
  dsimp only
  split
  · exact keeps_throw _
  · refine keeps_get.bind fun s => ?_
    split
    · exact keeps_throw _
    · split
      · exact keeps_throw _
      · split
        · exact keeps_throw _
        · exact keeps_pure _

lemma keeps_reroute (h : st.Respects R)
    {call : NodeInfo → ReplicaId → Payload → OperationContext → Action σ Payload}
    (hcall : ∀ peer r op ctx, Keeps R (call peer r op ctx)) (replica : ReplicaId)
    (operation : Payload) (ctx : OperationContext) :
    Keeps R (st.reroute call replica operation ctx) := by
  refine (keeps_liftExcept _).bind fun _ => (keeps_target st replica ctx).bind fun target => ?_
  refine (h.connect target).bind fun _ => (hcall _ _ _ _).attempt.bind fun r => ?_
  cases r with
  | ok output => exact (h.keepsState_modifyFailures _).lift.bind fun _ => keeps_pure output
  | error e =>
    dsimp only
    split
    · exact (h.keepsState_modifyFailures _).lift.bind fun _ => keeps_throw e
    · exact keeps_throw e

end Respects

end Station

/-! ### Nodes -/

namespace Node

variable {n n' : Node}

lemma Named.step (hn : n.Named) (hstep : Step n n') : n'.Named := by
  cases hstep with
  | operate _ _ => exact hn.setHosted _
  | merge _ _ _ => exact hn.setHosted _
  | refresh => exact hn.refresh
  | finish r =>
    rcases hosted_finishResume r n with heq | heq
    · exact hn.of_hosted heq
    · exact hn.refresh.of_hosted heq
  | other hhosted _ => exact hn.of_hosted hhosted

lemma Named.steps (hn : n.Named) (hsteps : ReflTransGen Step n n') : n'.Named := by
  induction hsteps with
  | refl => exact hn
  | tail _ hstep ih => exact ih.step hstep

/-- The node has only taken steps, and is still the same one. -/
structure Becomes (n n' : Node) : Prop where
  info : n'.info = n.info
  steps : n.Named → ReflTransGen Step n n'

lemma Becomes.named (h : n.Becomes n') (hn : n.Named) : n'.Named := hn.steps (h.steps hn)

instance : IsPreorder Node Becomes where
  refl _ := ⟨rfl, fun _ => .refl⟩
  trans _ _ _ h h' := ⟨h'.info.trans h.info, fun hn => (h.steps hn).trans (h'.steps (h.named hn))⟩

lemma Becomes.step (hstep : Step n n') (hinfo : n'.info = n.info) : n.Becomes n' :=
  ⟨hinfo, fun _ => .single hstep⟩

lemma Becomes.refresh : n.Becomes n.refreshTopology.1 := .step .refresh rfl

lemma Becomes.of_same (hhosted : n'.hosted = n.hosted) (hresume : n'.resume = n.resume)
    (hinfo : n'.info = n.info) : n.Becomes n' := .step (.other hhosted hresume) hinfo

lemma keeps_hostedInstance (id : InstanceId) : Keeps Becomes (hostedInstance id) := by
  intro n
  rcases (exec_hostedInstance id n).1 with heq | heq <;> rw [heq]
  · exact refl_of Becomes n
  · exact .refresh

def SameInfo (n n' : Node) : Prop := n'.info = n.info

instance : IsPreorder Node SameInfo where
  refl _ := rfl
  trans _ _ _ h h' := h'.trans h

lemma keeps_merge (subject : Subject) (batch : Payload) : Keeps Becomes (merge subject batch) := by
  have hinfo : Keeps SameInfo (merge subject batch) := by
    cases subject with
    | metadata k =>
      refine keeps_get.bind fun n => (keeps_liftExcept _).bind fun ⟨metadata, result⟩ => ?_
      dsimp only
      refine Keeps.bind (fun _ => rfl) fun _ => ?_
      split
      · exact Keeps.bind (fun _ => rfl) fun _ => keeps_pure result
      · exact keeps_pure result
    | replica r =>
      refine Keeps.bind (fun n => (keeps_hostedInstance _ n).info) fun h => ?_
      exact (keeps_liftExcept _).bind fun p => Keeps.bind (fun _ => rfl) fun _ => keeps_pure _
  exact fun n => ⟨hinfo n, fun hn => steps_merge hn subject batch⟩

lemma becomes_of_recordSizes {clock : Int} {p : Node × Option Payload}
    (hsizes : n.recordSizes clock = .ok p) : n.Becomes p.1 := by
  unfold recordSizes at hsizes
  cases hmetadata : n.metadata.recordSizes clock n.sizeReports with
  | error e =>
    rw [hmetadata] at hsizes
    cases hsizes
  | ok q =>
    obtain ⟨metadata, δs⟩ := q
    rw [hmetadata] at hsizes
    have hrecorded : n.Becomes { n with metadata } := .of_same rfl rfl rfl
    cases δs with
    | none =>
      cases hsizes
      exact hrecorded
    | some δs =>
      cases hsizes
      exact trans_of Becomes hrecorded .refresh

lemma keeps_finishResume (r : ReplicaId) :
    Keeps Becomes (liftM (finishResume r) : Action Node Bool) := by
  intro n
  refine .step (.finish r) ?_
  change ((finishResume r).run n).2.info = n.info
  rcases finishResume_cases r n with heq | heq | ⟨c, n₁, hn₁, -, -, heq⟩ <;> rw [heq]
  · rfl
  · rcases hn₁ with rfl | rfl <;> rfl

end Node

namespace Cluster

variable {c c' : Cluster} {seat seat' : Seat} {n n' : Node} {α : Type}

/-- Who serves where is as before, and every node has only taken steps. -/
structure Evolves (c c' : Cluster) : Prop where
  services : c'.services = c.services
  cut : c'.cut = c.cut
  nodes : ∀ seat n, c.nodes.get? seat = some n → ∃ n', c'.nodes.get? seat = some n' ∧ n.Becomes n'

instance : IsPreorder Cluster Evolves where
  refl c := ⟨rfl, rfl, fun _ n hn => ⟨n, hn, refl_of Node.Becomes n⟩⟩
  trans _ _ _ h h' := by
    refine ⟨h'.services.trans h.services, h'.cut.trans h.cut, fun seat n hn => ?_⟩
    obtain ⟨n₁, hn₁, hfirst⟩ := h.nodes seat n hn
    obtain ⟨n₂, hn₂, hrest⟩ := h'.nodes seat n₁ hn₁
    exact ⟨n₂, hn₂, trans_of Node.Becomes hfirst hrest⟩

lemma Evolves.insert (hn : c.nodes.get? seat = some n) (h : n.Becomes n') :
    c.Evolves { c with nodes := c.nodes.insert seat n' } := by
  refine ⟨rfl, rfl, fun seat' m hm => ?_⟩
  by_cases hseat : seat' = seat
  · subst hseat
    rw [hn, Option.some.injEq] at hm
    exact ⟨n', SortedMap.get?_insert_self, hm ▸ h⟩
  · exact ⟨m, (SortedMap.get?_insert_of_ne hseat).trans hm, refl_of Node.Becomes m⟩

lemma keeps_act {a : Action Node α} (ha : Keeps Node.Becomes a) (seat : Seat) :
    Keeps Evolves (act seat a) := by
  intro c
  cases hn : c.nodes.get? seat with
  | none =>
    rw [exec_act_gone hn]
    exact refl_of Evolves c
  | some n =>
    rw [exec_act hn]
    exact .insert hn (ha n)

lemma keeps_connect (caller callee : String) (ctx : OperationContext) :
    Keeps Evolves (connect caller callee ctx) := by
  refine (keeps_liftExcept _).bind fun _ => ?_
  refine (keeps_modify fun c => ⟨rfl, rfl, fun _ n hn => ⟨n, hn, refl_of Node.Becomes n⟩⟩).bind
    fun _ => keeps_get.bind fun c => ?_
  dsimp only
  split
  · split
    · exact keeps_pure _
    · exact keeps_throw _
  · exact keeps_throw _

/-! ### Pushes -/

variable {call : PushCall}

lemma respects_station (hcall : ∀ caller peer p, Keeps Evolves (call caller peer p)) (seat : Seat)
    (n : Node) : (station call seat n).Respects Evolves where
  setOutbox outbox c := by
    refine ⟨rfl, rfl, fun seat' m hm => ?_⟩
    by_cases hseat : seat = seat'
    · subst hseat
      exact ⟨{ m with outbox }, by simp [station, SortedMap.modify, hm], .of_same rfl rfl rfl⟩
    · exact ⟨m, by simp [station, SortedMap.modify, hm, hseat], refl_of Node.Becomes m⟩
  connect _ := keeps_pure ()
  push peer p := hcall _ peer p

lemma keeps_sending {a : Station Cluster → Action Cluster α}
    (ha : ∀ n, Keeps Evolves (a (station call seat n))) : Keeps Evolves (sending call seat a) := by
  refine keeps_get.bind fun c => ?_
  split
  · exact keeps_throw _
  · exact ha _

lemma keeps_tryPropagate (hcall : ∀ caller peer p, Keeps Evolves (call caller peer p)) (seat : Seat)
    (subject : Subject) (deltas : Payload) (ctx : OperationContext) :
    Keeps Evolves (tryPropagate call seat subject deltas ctx) := by
  refine (keeps_sending fun n => ?_).attempt.bind fun _ => keeps_pure ()
  exact (respects_station hcall seat n).keeps_propagate subject deltas ctx

lemma keeps_receive (hcall : ∀ caller peer p, Keeps Evolves (call caller peer p)) (seat : Seat)
    (p : Push) : Keeps Evolves (receive call seat p) := by
  refine (keeps_act (Node.keeps_merge p.subject p.deltas) seat).bind fun result => ?_
  split
  · exact (keeps_tryPropagate hcall seat _ _ _).bind fun _ => keeps_pure result
  · exact (keeps_pure _).bind fun _ => keeps_pure result

lemma keeps_pushWithin (depth : Nat) (caller : String) (peer : NodeInfo) (p : Push) :
    Keeps Evolves (pushWithin depth caller peer p) := by
  induction depth generalizing caller peer p with
  | zero => exact keeps_throw _
  | succ depth ih =>
    exact (keeps_connect _ _ _).bind fun seat => keeps_receive ih seat p

lemma keeps_push (caller : String) (peer : NodeInfo) (p : Push) :
    Keeps Evolves (push caller peer p) :=
  keeps_get.bind fun _ => keeps_pushWithin _ caller peer p

lemma keeps_announce (seat : Seat) (subject : Subject) (deltas : Payload) (ctx : OperationContext) :
    Keeps Evolves (announce seat subject deltas ctx) :=
  keeps_tryPropagate keeps_push seat subject deltas ctx

/-! ### Operations -/

variable {h : Hosted} {id : InstanceId}

lemma get?_of_exec_hostedInstance {c' : Cluster}
    (hexec : exec (act seat (Node.hostedInstance id)) c = (.ok h, c')) :
    ∃ n, c'.nodes.get? seat = some n ∧ n.hosted.get? id = some h := by
  cases hn : c.nodes.get? seat with
  | none =>
    rw [exec_act_gone hn] at hexec
    cases hexec
  | some n =>
    rw [exec_act hn, Prod.mk.injEq] at hexec
    obtain ⟨hok, rfl⟩ := hexec
    exact ⟨_, SortedMap.get?_insert_self, (Node.exec_hostedInstance id n).2 h hok⟩

/-- A node has an operation: it applies it, or forwards it. -/
lemma evolves_applyBy {call : OperationCall}
    (hcall : ∀ caller peer r op ctx, Keeps Evolves (call caller peer r op ctx))
    (hn : c.nodes.get? seat = some n) (hh : n.Named → n.hosted.get? h.id = some h)
    (op : h.type.Operation) (ctx : OperationContext) :
    c.Evolves (exec (applyBy call seat h op ctx) c).2 := by
  refine related_bind (keeps_liftExcept _ c) fun _ c₁ hactive => ?_
  rw [exec_liftExcept, Prod.mk.injEq] at hactive
  obtain ⟨-, rfl⟩ := hactive
  refine related_bind (keeps_act keeps_get seat c) fun m c₁ hget => ?_
  rw [exec_act_get hn, Prod.mk.injEq] at hget
  obtain ⟨hm, rfl⟩ := hget
  cases hm
  dsimp only
  split
  · refine related_bind (keeps_liftExcept _ c) fun ⟨h', output, deltas⟩ c₁ happly => ?_
    rw [exec_liftExcept, Prod.mk.injEq] at happly
    obtain ⟨happly, rfl⟩ := happly
    have hstep : n.Becomes (n.setHosted h') :=
      ⟨rfl, fun hnamed => .single (.operate (hh hnamed) happly)⟩
    have hset : c.Evolves (exec (act seat (modify fun n => n.setHosted h')) c).2 := by
      rw [exec_act_modify hn]
      exact .insert hn hstep
    refine related_bind hset fun _ c₁ _ => ?_
    split
    · exact ((keeps_announce seat _ _ _).bind fun _ => keeps_pure output) c₁
    · exact keeps_pure output c₁
  · refine ((keeps_sending fun m => ?_).bind fun output => keeps_liftExcept _) c
    exact (respects_station keeps_push seat m).keeps_reroute (hcall n.info) _ _ _

lemma keeps_executeBy {call : OperationCall}
    (hcall : ∀ caller peer r op ctx, Keeps Evolves (call caller peer r op ctx)) (seat : Seat)
    (r : ReplicaId) (operation : Payload) (ctx : OperationContext) :
    Keeps Evolves (executeBy call seat r operation ctx) := by
  intro c
  refine related_bind (keeps_act (Node.keeps_hostedInstance _) seat c) fun h c₁ hexec => ?_
  obtain ⟨n, hn, hhosted⟩ := get?_of_exec_hostedInstance hexec
  refine related_bind (keeps_liftExcept _ c₁) fun op c₂ hop => ?_
  rw [exec_liftExcept, Prod.mk.injEq] at hop
  obtain ⟨-, rfl⟩ := hop
  have happly : c₁.Evolves (exec (do
      return Wire.encode (← applyBy call seat h op ctx) : Action Cluster Payload) c₁).2 :=
    related_bind (evolves_applyBy hcall hn (fun hnamed => hnamed _ h hhosted ▸ hhosted) op ctx)
      fun _ c₂ _ => keeps_pure _ c₂
  dsimp only
  split
  · exact related_bind (keeps_throw _ c₁) nofun
  · exact happly

lemma keeps_callWithin (hops : Nat) (caller peer : NodeInfo) (r : ReplicaId) (operation : Payload)
    (ctx : OperationContext) : Keeps Evolves (callWithin hops caller peer r operation ctx) := by
  induction hops generalizing caller peer r operation ctx with
  | zero => exact keeps_throw _
  | succ hops ih =>
    exact (keeps_connect _ _ _).bind fun seat => keeps_executeBy ih seat r operation ctx

lemma keeps_call (caller peer : NodeInfo) (r : ReplicaId) (operation : Payload)
    (ctx : OperationContext) : Keeps Evolves (Cluster.call caller peer r operation ctx) :=
  keeps_get.bind fun _ => keeps_callWithin _ caller peer r operation ctx

end Cluster

/-! ### Exchanges -/

namespace Exchange

variable {S D T S' D' T' : Type} [CausalTimestamp T D] [DeltaCrdt S D T] [Wire D] [Wire T]
  [CausalTimestamp T' D'] [DeltaCrdt S' D' T'] [Wire D'] [Wire T']

omit [CausalTimestamp T D] in
/-- What a side hears it merges, or it leaves its state alone. -/
lemma state_hear (h : Half S T) (frame : Frame) :
    ∃ ds, (h.hear frame).state = (mergeAll h.state ds).1 := by
  unfold Half.hear
  split
  · split <;> exact ⟨[], rfl⟩
  · exact ⟨[], rfl⟩
  · rename_i batch hphase
    cases hds : (Wire.decode batch : Except ClusterError (List D)) with
    | error e => simp only [Encoded.merge, hds]; exact ⟨[], rfl⟩
    | ok ds => simp only [Encoded.merge, hds]; exact ⟨ds, rfl⟩
  all_goals exact ⟨[], rfl⟩

lemma state_move? {h h' : Half S T} {ch ch' : Half.Channel} {m : Move}
    (hm : h.move? ch m = some (h', ch')) : ∃ ds, h'.state = (mergeAll h.state ds).1 := by
  cases m with
  | prepare =>
    simp only [Half.move?, Half.prepare?, Option.map_eq_some_iff] at hm
    obtain ⟨h'', hprepare, heq⟩ := hm
    cases heq
    split at hprepare
    · cases hprepare
      exact ⟨[], rfl⟩
    · cases hprepare
  | send =>
    simp only [Half.move?, Option.bind_eq_bind, Option.bind_eq_some_iff] at hm
    obtain ⟨frame, -, hm⟩ := hm
    split at hm
    · cases hm
      exact ⟨[], state_afterRefusal h⟩
    · split at hm
      · cases hm
        exact ⟨[], state_afterSending h⟩
      · cases hm
  | receive =>
    simp only [Half.move?] at hm
    split at hm
    · cases hm
    · split at hm
      · cases hm
        exact state_hear h _
      · split at hm
        · cases hm
        · cases hm
          exact ⟨[], state_hearNothing h⟩

lemma Duplex.states_move? {x x' : Duplex S T S' T'} {side : Side} {m : Move}
    (hm : x.move? side m = some x') :
    (∃ ds, x'.left.state = (mergeAll x.left.state ds).1) ∧
      ∃ ds, x'.right.state = (mergeAll x.right.state ds).1 := by
  cases side with
  | left =>
    simp only [Duplex.move?, Option.bind_eq_bind, Option.bind_eq_some_iff] at hm
    obtain ⟨⟨left, ch⟩, hleft, heq⟩ := hm
    cases heq
    exact ⟨state_move? hleft, [], rfl⟩
  | right =>
    simp only [Duplex.move?, Option.bind_eq_bind, Option.bind_eq_some_iff] at hm
    obtain ⟨⟨right, ch⟩, hright, heq⟩ := hm
    cases heq
    exact ⟨⟨[], rfl⟩, state_move? hright⟩

lemma Duplex.states_runWithin (fuel : Nat) (x : Duplex S T S' T') :
    (∃ ds, (x.runWithin fuel).left.state = (mergeAll x.left.state ds).1) ∧
      ∃ ds, (x.runWithin fuel).right.state = (mergeAll x.right.state ds).1 := by
  induction fuel generalizing x with
  | zero => exact ⟨⟨[], rfl⟩, [], rfl⟩
  | succ fuel ih =>
    rw [Duplex.runWithin]
    split
    · exact ⟨⟨[], rfl⟩, [], rfl⟩
    · rename_i x' hx'
      obtain ⟨⟨side, m⟩, -, hm⟩ := List.exists_of_findSome?_eq_some hx'
      obtain ⟨⟨ds, hds⟩, ds', hds'⟩ := Duplex.states_move? hm
      obtain ⟨⟨es, hes⟩, es', hes'⟩ := ih x'
      exact ⟨⟨ds ++ es, by rw [hes, hds, mergeAll_append]⟩, ds' ++ es', by
        rw [hes', hds', mergeAll_append]⟩

end Exchange

/-! ### Rounds -/

lemma Node.Becomes.setShard {n : Node} {h : Hosted} {id : InstanceId} {shard : ShardId}
    {s : h.type.State} (hh : n.hosted.get? id = some h) (hs : h.shard shard = .ok s)
    (ds : List h.type.Delta) : n.Becomes (n.setHosted (h.setShard shard (mergeAll s ds).1)) where
  info := rfl
  steps hn := .single (.merge ds (hn id h hh ▸ hh) hs)

namespace Cluster

open Exchange

variable {seat peer : Seat} {c : Cluster} {h : Hosted} {id : InstanceId}

/-- What a node hosts it still hosts after an instance was looked for, there or elsewhere. -/
lemma get?_after_hostedInstance {m : Node} (seat : Seat) (id' : InstanceId)
    (hm : c.nodes.get? peer = some m) (hh : m.hosted.get? id = some h) :
    ∃ m', (exec (act seat (Node.hostedInstance id')) c).2.nodes.get? peer = some m' ∧
      m'.hosted.get? id = some h := by
  cases hn : c.nodes.get? seat with
  | none =>
    rw [exec_act_gone hn]
    exact ⟨m, hm, hh⟩
  | some n =>
    rw [exec_act hn]
    by_cases hself : peer = seat
    · subst hself
      rw [hm, Option.some.injEq] at hn
      subst hn
      refine ⟨_, SortedMap.get?_insert_self, ?_⟩
      rcases (Node.exec_hostedInstance id' m).1 with heq | heq <;> rw [heq]
      · exact hh
      · exact Node.get?_hostDescribed hh
    · exact ⟨m, (SortedMap.get?_insert_of_ne hself).trans hm, hh⟩

lemma evolves_setShards {theirs ours : Hosted} {shard : ShardId} {s : theirs.type.State}
    {s' : ours.type.State} {m n : Node} (hpeer : c.nodes.get? peer = some m)
    (htheirs : m.hosted.get? id = some theirs) (hseat : c.nodes.get? seat = some n)
    (hours : n.hosted.get? id = some ours) (hs : theirs.shard shard = .ok s)
    (hs' : ours.shard shard = .ok s') (ds : List theirs.type.Delta) (ds' : List ours.type.Delta)
    (outcome : Except ClusterError Report) :
    c.Evolves (exec (do
      act peer (modify fun n => n.setHosted (theirs.setShard shard (mergeAll s ds).1))
      act seat (modify fun n => n.setHosted (ours.setShard shard (mergeAll s' ds').1))
      liftM outcome) c).2 := by
  simp only [exec_bind, exec_act_modify hpeer]
  by_cases hself : seat = peer
  · subst hself
    rw [hpeer, Option.some.injEq] at hseat
    subst hseat
    rw [htheirs, Option.some.injEq] at hours
    subst hours
    -- the second state stands in the end
    have htwice : (m.setHosted (theirs.setShard shard (mergeAll s ds).1)).setHosted
        (theirs.setShard shard (mergeAll s' ds').1) =
          m.setHosted (theirs.setShard shard (mergeAll s' ds').1) := by
      simp only [Node.setHosted, Hosted.setShard, SortedMap.insert_insert]
    rw [exec_act_modify SortedMap.get?_insert_self]
    simp only [exec_liftExcept, SortedMap.insert_insert, htwice]
    exact .insert hpeer (.setShard htheirs hs' ds')
  · rw [exec_act_modify ((SortedMap.get?_insert_of_ne hself).trans hseat)]
    simp only [exec_liftExcept]
    exact trans_of Evolves (.insert hpeer (.setShard htheirs hs ds))
      (.insert ((SortedMap.get?_insert_of_ne hself).trans hseat) (.setShard hours hs' ds'))

lemma state_sideOf {S T : Type} (n : Node) (s : S) : (sideOf n s : Half S T).state = s := by
  rw [sideOf]
  split <;> rfl

lemma keeps_exchangeReplica (seat peer : Seat) (r : ReplicaId) :
    Keeps Evolves (exchangeReplica seat peer r) := by
  intro c
  refine related_bind (keeps_act (Node.keeps_hostedInstance _) peer c) fun theirs c₁ htheirs => ?_
  obtain ⟨m, hm, hhosted⟩ := get?_of_exec_hostedInstance htheirs
  refine related_bind (keeps_liftExcept _ c₁) fun s c₂ hs => ?_
  rw [exec_liftExcept, Prod.mk.injEq] at hs
  obtain ⟨hs, rfl⟩ := hs
  refine related_bind (keeps_act keeps_get peer c₁) fun m₁ c₂ hget => ?_
  rw [exec_act_get hm, Prod.mk.injEq] at hget
  obtain ⟨-, rfl⟩ := hget
  refine related_bind (keeps_liftExcept _ c₁) fun _ c₂ hcheck => ?_
  rw [exec_liftExcept, Prod.mk.injEq] at hcheck
  obtain ⟨-, rfl⟩ := hcheck
  refine related_bind (keeps_act (Node.keeps_hostedInstance _) seat c₁) fun ours c₂ hours => ?_
  obtain ⟨m', hm', hhosted'⟩ := get?_after_hostedInstance seat r.instanceId hm hhosted
  rw [hours] at hm'
  obtain ⟨n, hn, hhostedₙ⟩ := get?_of_exec_hostedInstance hours
  refine related_bind (keeps_liftExcept _ c₂) fun s' c₃ hs' => ?_
  rw [exec_liftExcept, Prod.mk.injEq] at hs'
  obtain ⟨hs', rfl⟩ := hs'
  refine related_bind (keeps_act keeps_get seat c₂) fun n' c₃ hget => ?_
  rw [exec_act_get hn, Prod.mk.injEq] at hget
  obtain ⟨-, rfl⟩ := hget
  dsimp only
  generalize hx : (Duplex.connect (sideOf n' s') (sideOf m₁ s)
    m₁.config.exchangeChannelCapacity) = x
  obtain ⟨⟨ds', hleft⟩, ds, hright⟩ := Duplex.states_runWithin x.moveBound x
  have hstart : x.left.state = s' ∧ x.right.state = s := by
    rw [← hx]
    exact ⟨state_sideOf n' s', state_sideOf m₁ s⟩
  rw [hstart.1] at hleft
  rw [hstart.2] at hright
  rw [Duplex.run, hleft, hright]
  exact evolves_setShards hm' hhosted' hn hhostedₙ hs hs' ds ds' _

lemma keeps_exchangeMetadata (seat peer : Seat) (k : MetadataKind) :
    Keeps Evolves (exchangeMetadata seat peer k) := by
  refine (keeps_act keeps_get seat).bind fun n => (keeps_act keeps_get peer).bind fun m => ?_
  refine (keeps_liftExcept _).bind fun _ => ?_
  refine (keeps_act ?_ peer).bind fun _ => (keeps_act ?_ seat).bind fun _ => keeps_liftExcept _
  · refine Keeps.bind (fun n => .of_same rfl rfl rfl) fun _ => ?_
    split
    · exact fun n => .refresh
    · exact keeps_pure ()
  · exact fun n => .of_same rfl rfl rfl

lemma keeps_exchange (seat : Seat) (peer : NodeInfo) (subject : Subject) :
    Keeps Evolves (exchange seat peer subject) := by
  refine (keeps_act keeps_get seat).bind fun n => (keeps_connect _ _ _).bind fun other => ?_
  cases subject with
  | replica r => exact keeps_exchangeReplica seat other r
  | metadata k => exact keeps_exchangeMetadata seat other k

lemma keeps_syncWith (seat : Seat) (peer : NodeInfo) (subject : Subject) (s : RoundSummary) :
    Keeps Evolves (syncWith seat peer subject s) := by
  refine (keeps_exchange seat peer subject).attempt.bind fun r => ?_
  have hreport (f : Nat → FailureDetector → FailureDetector) :
      Keeps Evolves (sending push seat fun st => liftM (st.modifyFailures f)) :=
    keeps_sending fun n => ((respects_station keeps_push seat n).keepsState_modifyFailures f).lift
  cases r with
  | ok report =>
    refine (hreport _).bind fun _ => ?_
    cases subject with
    | metadata k =>
      dsimp only
      split
      · exact (keeps_act (fun n => .refresh) seat).bind fun _ => keeps_pure _
      · exact keeps_pure _
    | replica r =>
      exact (keeps_act (fun n => .of_same rfl rfl rfl) seat).bind fun _ => keeps_pure _
  | error e =>
    split
    · rename_i heq
      cases heq
    · exact keeps_throw _
    · rename_i heq
      cases heq
      dsimp only
      have hfailed : Keeps Evolves (pure { s with failed := s.failed + 1 } : Action Cluster _) :=
        keeps_pure _
      have hunreachable : Keeps Evolves (if e.isUnreachable then do
          sending push seat fun st => liftM (st.reportUnreachable peer)
          pure { s with failed := s.failed + 1 } else pure { s with failed := s.failed + 1 } :
            Action Cluster RoundSummary) := by
        split
        · exact (hreport _).bind fun _ => hfailed
        · exact hfailed
      split
      · exact (keeps_throw e).bind fun _ => hunreachable
      · exact hunreachable

lemma keeps_publishSizes (seat : Seat) : Keeps Evolves (publishSizes seat) := by
  have hrecord (clock : Int) : Keeps Node.Becomes (do
      let p ← (← get).recordSizes clock
      set p.1
      return p.2) := by
    intro n
    change n.Becomes ((exec (do
      let p ← liftM (n.recordSizes clock)
      set p.1
      return p.2) n).2)
    rw [exec_bind, exec_liftExcept]
    cases hsizes : n.recordSizes clock with
    | error e => exact refl_of Node.Becomes n
    | ok p => exact Node.becomes_of_recordSizes hsizes
  refine keeps_get.bind fun c => (keeps_act (hrecord c.clock) seat).bind fun deltas => ?_
  cases deltas with
  | none => exact keeps_pure ()
  | some deltas =>
    exact (keeps_act keeps_get seat).bind fun n => keeps_announce seat _ deltas _

lemma keeps_syncReplica (seat : Seat) (s : RoundSummary) (r : ReplicaId) :
    Keeps Evolves (syncReplica seat s r) := by
  refine (keeps_act keeps_get seat).bind fun n => keeps_get.bind fun c => ?_
  have hfinish (s : RoundSummary) : Keeps Evolves (do
      let resumed ← act seat (liftM (Node.finishResume r))
      return if resumed then { s with resumed := s.resumed ++ [r] } else s) :=
    (keeps_act (Node.keeps_finishResume r) seat).bind fun _ => keeps_pure _
  dsimp only
  split
  · exact (keeps_syncWith seat _ _ s).bind hfinish
  · exact (keeps_pure s).bind hfinish

/-- **A round takes every node by steps.** -/
theorem keeps_syncRound (seat : Seat) : Keeps Evolves (syncRound seat) := by
  refine (keeps_act keeps_get seat).bind fun n => keeps_get.bind fun c => ?_
  have hrest (s : RoundSummary) : Keeps Evolves (do
      act seat (modify fun n => n.refreshTopology.1)
      publishSizes seat
      let n ← act seat get
      (n.distributor.heldBy n.info.id).foldlM (syncReplica seat) s) :=
    (keeps_act (fun n => .refresh) seat).bind fun _ => (keeps_publishSizes seat).bind fun _ =>
      (keeps_act keeps_get seat).bind fun _ => keeps_foldlM (keeps_syncReplica seat) _ s
  split
  · exact (keeps_foldlM (fun s k => keeps_syncWith seat _ _ s) _ _).bind hrest
  · exact (keeps_pure _).bind hrest

end Cluster

end DeltaRing
