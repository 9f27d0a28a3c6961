import DeltaRing.Cluster.Push
import DeltaRing.Rerouting
import DeltaRing.Proofs.Collections.SortedMap

/-!
Actions by what they answer and what they leave behind.

`exec` runs an action on a world. An action that only sends, or only learns who can be reached,
leaves every node as it was up to its outbox, and says so in one equation between what lasts of the
cluster before and after.
-/

namespace DeltaRing

namespace Action

variable {σ α β : Type} {s : σ}

def exec (a : Action σ α) (s : σ) : Except ClusterError α × σ := a.run.run s

@[simp] lemma exec_pure (a : α) : exec (pure a : Action σ α) s = (.ok a, s) := rfl

@[simp] lemma exec_throw (e : ClusterError) : exec (throw e : Action σ α) s = (.error e, s) := rfl

@[simp] lemma exec_get : exec (get : Action σ σ) s = (.ok s, s) := rfl

@[simp] lemma exec_modify (f : σ → σ) : exec (modify f : Action σ Unit) s = (.ok (), f s) := rfl

@[simp] lemma exec_liftExcept (x : Except ClusterError α) :
    exec (liftM x : Action σ α) s = (x, s) := by
  cases x <;> rfl

@[simp] lemma exec_liftState (a : StateM σ α) :
    exec (liftM a : Action σ α) s = (.ok (a.run s).1, (a.run s).2) := rfl

@[simp] lemma exec_attempt (a : Action σ α) : exec a.attempt s = (.ok (exec a s).1, (exec a s).2) :=
  rfl

lemma exec_bind (a : Action σ α) (f : α → Action σ β) :
    exec (a >>= f) s = match exec a s with
      | (.ok x, s') => exec (f x) s'
      | (.error e, s') => (.error e, s') := by
  change ((a >>= f).run).run s = _
  rw [ExceptT.run_bind, StateT.run_bind]
  cases h : a.run.run s with
  | mk r s' =>
    rw [exec, h]
    cases r <;> rfl

lemma exec_bind_ok {a : Action σ α} {f : α → Action σ β} {x : α} {s' : σ}
    (h : exec a s = (.ok x, s')) : exec (a >>= f) s = exec (f x) s' := by
  rw [exec_bind, h]

lemma exec_bind_error {a : Action σ α} {f : α → Action σ β} {e : ClusterError} {s' : σ}
    (h : exec a s = (.error e, s')) : exec (a >>= f) s = (.error e, s') := by
  rw [exec_bind, h]

lemma exec_forM_liftState (f : α → StateM σ PUnit) (l : List α) (s : σ) :
    exec (l.forM fun x => (liftM (f x) : Action σ PUnit)) s = (.ok ⟨⟩, ((l.forM f).run s).2) := by
  induction l generalizing s with
  | nil => rfl
  | cons x l ih => exact (exec_bind_ok rfl).trans (ih _)

end Action

open DeltaRing.Action

lemma ensureActive_of_not_cancelled {ctx : OperationContext} (h : ctx.cancelled = false) :
    ctx.ensureActive = .ok () := by
  simp [OperationContext.ensureActive, h]

/-! ### Whom a push goes to -/

namespace Station

variable {σ : Type} (st : Station σ)

def eligible (peers : List NodeInfo) (ctx : OperationContext) : List NodeInfo :=
  peers.filter fun n => n.id != st.here.id && ctx.origin != some n.id

def parkedFor (s : σ) (peers : List NodeInfo) (ctx : OperationContext) : List NodeInfo :=
  (st.eligible peers ctx).filter fun n => st.isUnreachable s n.id

def targets (s : σ) (peers : List NodeInfo) (ctx : OperationContext) : List NodeInfo :=
  (st.propagation st.here ((st.eligible peers ctx).filter fun n => !st.isUnreachable s n.id)).filter
    fun n => ctx.origin != some n.id

def outgoing (subject : Subject) (deltas : Payload) (ctx : OperationContext) : Push :=
  ⟨subject, deltas, ctx.forwarded st.here.id⟩

/-- The targets are chosen before anything is sent. -/
lemma exec_pushAll_eq {subject : Subject} {peers : List NodeInfo} {deltas : Payload}
    {ctx : OperationContext} {s s' : σ} {delivered : Nat} {error : Option ClusterError}
    (h : (st.deliverAll (st.outgoing subject deltas ctx) (st.targets s peers ctx)).run
      (((st.parkedFor s peers ctx).forM fun peer =>
        st.park peer (st.outgoing subject deltas ctx).detached).run s).2 =
          ((delivered, error), s')) :
    exec (st.pushAll subject peers deltas ctx) s = (error.elim (.ok delivered) .error, s') := by
  rw [pushAll, exec_bind, exec_get]
  simp only [List.partition_eq_filter_filter]
  rw [exec_bind_ok (exec_forM_liftState _ _ _)]
  refine (exec_bind_ok (congrArg (Prod.map Except.ok id) h)).trans ?_
  cases error <;> rfl

lemma exec_pushAll (subject : Subject) (peers : List NodeInfo) (deltas : Payload)
    (ctx : OperationContext) (s : σ) :
    (exec (st.pushAll subject peers deltas ctx) s).2 =
      ((st.deliverAll (st.outgoing subject deltas ctx) (st.targets s peers ctx)).run
        (((st.parkedFor s peers ctx).forM fun peer =>
          st.park peer (st.outgoing subject deltas ctx).detached).run s).2).2 :=
  congrArg Prod.snd (st.exec_pushAll_eq rfl)

end Station

namespace Station

variable {σ : Type} (st : Station σ)

def noting (peer : NodeInfo) (p : Push) (r : Except ClusterError MergeResult) :
    Action σ MergeResult := do
  match r with
  | .ok result =>
    st.reportSuccess peer
    return result
  | .error e =>
    if e.isUnreachable then
      st.reportUnreachable peer
      st.park peer p.detached
    throw e

lemma run_flush_of_queue_eq_nil {peer : NodeInfo} {s : σ}
    (hparked : (st.outbox s).retry.queue peer.id = []) :
    ((st.flush peer).run s).2 = ((st.modifyRetry fun b => (b.drain peer.id).1).run s).2 := by
  simp only [flush, StateT.run_bind, RetryBuffer.drain]
  change ((st.replay peer ((st.outbox s).retry.queue peer.id)).run _).2 = _
  rw [hparked]
  rfl

lemma exec_deliver {p : Push} (hctx : p.ctx.cancelled = false) (peer : NodeInfo) (s : σ) :
    exec (st.deliver peer p) s =
      exec (st.noting peer p (exec (st.send peer p) ((st.flush peer).run s).2).1)
        (exec (st.send peer p) ((st.flush peer).run s).2).2 := by
  rw [deliver, exec_bind, exec_liftState]
  dsimp only
  rw [exec_bind, exec_liftExcept, ensureActive_of_not_cancelled hctx]
  dsimp only
  exact exec_bind_ok rfl

/-- One peer after another, whatever came of the first; the first error counts. -/
lemma run_deliverAll_cons_eq (p : Push) (peer : NodeInfo) (peers : List NodeInfo) (s : σ) :
    let r := exec (st.deliver peer p) s
    let rest := (st.deliverAll p peers).run r.2
    (st.deliverAll p (peer :: peers)).run s =
      (match r.1 with
        | .ok _ => (rest.1.1 + 1, rest.1.2)
        | .error e => (rest.1.1, some e), rest.2) := by
  intro r rest
  cases hexec : exec (st.deliver peer p) s with
  | mk result s' =>
    have hexec' : (st.deliver peer p).run.run s = (result, s') := hexec
    simp only [deliverAll, StateT.run_bind, hexec', rest, r, hexec]
    cases result <;> rfl

lemma run_deliverAll_cons (p : Push) (peer : NodeInfo) (peers : List NodeInfo) (s : σ) :
    ((st.deliverAll p (peer :: peers)).run s).2 =
      ((st.deliverAll p peers).run (exec (st.deliver peer p) s).2).2 := by
  rw [run_deliverAll_cons_eq]

end Station

/-! ### Hosted instances -/

namespace Hosted

variable {h : Hosted}

lemma shard_eq_ok {shard : ShardId} {s : h.type.State} :
    h.shard shard = .ok s ↔ h.shards[shard]? = some s := by
  rw [Hosted.shard]
  split
  · rename_i s' hs
    rw [hs, Except.ok.injEq, Option.some.injEq]
  · rename_i hs
    simp [hs]

lemma shard_setShard_self {shard : ShardId} {s s' : h.type.State} (hs : h.shard shard = .ok s) :
    (h.setShard shard s').shard shard = .ok s' := by
  obtain ⟨hlt, -⟩ := List.getElem?_eq_some_iff.mp (shard_eq_ok.mp hs)
  have hget : (h.shards.set shard s')[shard]? = some s' := by simp [hlt]
  exact shard_eq_ok.mpr hget

lemma shard_setShard_of_ne {shard shard' : ShardId} {s s' : h.type.State} (hne : shard ≠ shard')
    (hs : h.shard shard' = .ok s) : (h.setShard shard s').shard shard' = .ok s := by
  have hget : (h.shards.set shard s')[shard']? = some s := by
    rw [List.getElem?_set_ne hne]
    exact shard_eq_ok.mp hs
  exact shard_eq_ok.mpr hget

lemma apply_of_shard {a : Actor} {op : h.type.Operation} {s : h.type.State}
    (hs : h.shard (h.shardOfOperation op) = .ok s) :
    h.apply a op = .ok (h.setShard (h.shardOfOperation op) (Operable.apply s a op).1,
      (Operable.apply s a op).2.1, (Operable.apply s a op).2.2) := by
  rw [Hosted.apply, hs]
  rfl

end Hosted

/-! ### Merging what was pushed -/

namespace Node

variable {n : Node} {r : ReplicaId} {batch : Payload} {h : Hosted}

lemma exec_hostedInstance_of_get? {id : InstanceId} (hh : n.hosted.get? id = some h) :
    exec (hostedInstance id) n = (.ok h, n) := by
  simp only [hostedInstance, exec_bind, exec_get, hh]
  rfl

lemma exec_merge_hosted {s : h.type.State} {ds : List h.type.Delta}
    (hh : n.hosted.get? r.instanceId = some h) (hs : h.shard r.shard = .ok s)
    (hds : (Wire.decode batch : Except ClusterError (List h.type.Delta)) = .ok ds) :
    exec (merge (.replica r) batch) n =
      (.ok (mergeAll s ds).2, n.setHosted (h.setShard r.shard (mergeAll s ds).1)) := by
  have hmerge : h.merge r.shard batch =
      .ok (h.setShard r.shard (mergeAll s ds).1, (mergeAll s ds).2) := by
    rw [Hosted.merge, hs]
    change (Encoded.merge s batch >>= _) = _
    rw [Encoded.merge, hds]
    rfl
  simp only [merge, exec_bind, exec_hostedInstance_of_get? hh, exec_liftExcept, hmerge, exec_modify]
  rfl

lemma exec_merge_of_undecodable {s : h.type.State} {e : ClusterError}
    (hh : n.hosted.get? r.instanceId = some h) (hs : h.shard r.shard = .ok s)
    (hds : (Wire.decode batch : Except ClusterError (List h.type.Delta)) = .error e) :
    exec (merge (.replica r) batch) n = (.error e, n) := by
  have hmerge : h.merge r.shard batch = .error e := by
    rw [Hosted.merge, hs]
    change (Encoded.merge s batch >>= _) = _
    rw [Encoded.merge, hds]
    rfl
  rw [merge, exec_bind_ok (exec_hostedInstance_of_get? hh), exec_bind, exec_liftExcept, hmerge]

end Node

/-- The node without what it knows of its peers and owes them. -/
def Node.lasting (n : Node) : Node := { n with outbox := ⟨.ofRecheck 0, .ofCapacity 0⟩ }

namespace Cluster

variable {c c' : Cluster} {seat seat' : Seat} {n : Node}

def lasting (c : Cluster) (seat : Seat) : Option Node := (c.nodes.get? seat).map Node.lasting

def shards (c : Cluster) (seat : Seat) : Option (SortedMap InstanceId Hosted) :=
  (c.nodes.get? seat).map Node.hosted

lemma shards_eq_of_lasting_eq (h : c.lasting = c'.lasting) : c.shards = c'.shards := by
  have hshards : ∀ c : Cluster, c.shards = fun seat => (c.lasting seat).map Node.hosted := by
    intro c
    ext seat : 1
    simp [shards, lasting, Function.comp_def, Node.lasting]
  rw [hshards, hshards, h]

lemma exists_node_of_lasting_eq (h : c.lasting = c'.lasting) (hn : c'.nodes.get? seat = some n) :
    ∃ m, c.nodes.get? seat = some m ∧ m.lasting = n.lasting := by
  have := congrFun h seat
  simpa [lasting, hn, Option.map_eq_some_iff] using this

/-! ### Asking -/

lemma exec_act_of_get? {α : Type} {a : Action Node α} {r : Except ClusterError α}
    (hn : c.nodes.get? seat = some n) (ha : exec a n = (r, n)) :
    exec (act seat a) c = (r, c) := by
  have ha' : a.run n = (r, n) := ha
  simp only [act, exec_bind, exec_get, hn, ha', exec_modify, SortedMap.insert_of_get? hn]
  cases r <;> rfl

lemma exec_act_get (hn : c.nodes.get? seat = some n) : exec (act seat get) c = (.ok n, c) :=
  exec_act_of_get? hn rfl

lemma exec_act_gone {α : Type} {a : Action Node α} (hn : c.nodes.get? seat = none) :
    exec (act seat a) c = (.error (.unreachable "" "the node is gone"), c) := by
  simp [act, exec_bind, hn]

lemma exec_act {α : Type} {a : Action Node α} (hn : c.nodes.get? seat = some n) :
    exec (act seat a) c =
      ((exec a n).1, { c with nodes := c.nodes.insert seat (exec a n).2 }) := by
  cases hexec : exec a n with
  | mk r n' =>
    have hrun : a.run n = (r, n') := hexec
    simp only [act, exec_bind, exec_get, hn, hrun, exec_modify]
    cases r <;> rfl

lemma exec_act_modify (hn : c.nodes.get? seat = some n) (f : Node → Node) :
    exec (act seat (modify f)) c = (.ok (), { c with nodes := c.nodes.insert seat (f n) }) :=
  exec_act hn

/-! ### Sending -/

@[simp] lemma here_station (call : PushCall) (seat : Seat) (n : Node) :
    (station call seat n).here = n.info := rfl

lemma distributor_station (call : PushCall) (hn : c.nodes.get? seat = some n) :
    (station call seat n).distributor c = n.distributor := by
  simp only [station, SortedMap.getD, hn, Option.getD_some]

lemma isUnreachable_station (call : PushCall) (hn : c.nodes.get? seat = some n) (id : NodeId) :
    (station call seat n).isUnreachable c id = n.outbox.failures.isUnreachable c.timer id := by
  simp only [Station.isUnreachable, station, SortedMap.getD, hn, Option.getD_some]

lemma lasting_setOutbox (call : PushCall) (seat : Seat) (n : Node) (outbox : Outbox) :
    ((station call seat n).setOutbox outbox c).lasting = c.lasting := by
  ext seat' : 1
  by_cases h : seat' = seat
  · subst h
    simp only [station, lasting, SortedMap.modify, SortedMap.get?_map, Key.compare_self, if_pos,
      Option.map_map]
    rfl
  · simp [station, lasting, SortedMap.modify, Ne.symm h]

lemma lasting_reportSuccess (call : PushCall) (seat : Seat) (n : Node) (peer : NodeInfo) :
    (((station call seat n).reportSuccess peer).run c).2.lasting = c.lasting :=
  lasting_setOutbox call seat n _

lemma lasting_reportUnreachable (call : PushCall) (seat : Seat) (n : Node) (peer : NodeInfo) :
    (((station call seat n).reportUnreachable peer).run c).2.lasting = c.lasting :=
  lasting_setOutbox call seat n _

/-- Finding who serves at an address either works out or tells that it is unreachable. -/
lemma exec_connect {ctx : OperationContext} (hctx : ctx.cancelled = false)
    (caller callee : String) :
    (exec (connect caller callee ctx) c).2.lasting = c.lasting ∧
      ∀ e, (exec (connect caller callee ctx) c).1 = .error e → e.isUnreachable = true := by
  have hactive := ensureActive_of_not_cancelled hctx
  simp only [connect, exec_bind, exec_liftExcept, hactive, exec_modify, exec_get]
  split
  · split
    · exact ⟨rfl, nofun⟩
    · refine ⟨rfl, ?_⟩
      rintro _ ⟨⟩
      rfl
  · refine ⟨rfl, ?_⟩
    rintro _ ⟨⟩
    rfl

/-- Who serves at an address that can be reached is found; the call is counted. -/
lemma exec_connect_of_reachable {ctx : OperationContext} {caller callee : String}
    (hctx : ctx.cancelled = false) (hcaller : c.isReachable caller = true)
    (hcallee : c.isReachable callee = true) (hserved : c.services.get? callee = some seat) :
    exec (connect caller callee ctx) c =
      (.ok seat, { c with calls := c.calls.alter callee fun n => n.getD 0 + 1 }) := by
  have hactive := ensureActive_of_not_cancelled hctx
  simp only [isReachable] at hcaller hcallee
  simp only [connect, exec_bind, exec_liftExcept, hactive, exec_modify, exec_get, isReachable,
    hcaller, hcallee, Bool.and_self, if_true, hserved, exec_pure]

lemma exec_tryPropagate_of_get? (call : PushCall) {subject : Subject} {deltas : Payload}
    {ctx : OperationContext} (hn : c.nodes.get? seat = some n) (hctx : ctx.cancelled = false)
    (hbudget : ctx.budget ≠ 0) :
    (exec (tryPropagate call seat subject deltas ctx) c).2 =
      (exec ((station call seat n).pushAll subject ((station call seat n).peersFor c subject)
        deltas ctx) c).2 := by
  have hactive := ensureActive_of_not_cancelled hctx
  change (exec (sending call seat fun st => st.propagate subject deltas ctx) c).2 = _
  simp only [sending, exec_bind, exec_get, hn, Station.propagate, exec_liftExcept, hactive,
    hbudget, if_false]

lemma peersFor_station (call : PushCall) (hn : c.nodes.get? seat = some n) (r : ReplicaId) :
    (station call seat n).peersFor c (.replica r) = n.distributor.writeReplicas r := by
  rw [Station.peersFor, distributor_station call hn]

lemma exec_announce (seat : Seat) (subject : Subject) (deltas : Payload) (ctx : OperationContext) :
    (exec (announce seat subject deltas ctx) c).1 = .ok () := rfl

lemma exec_announce_of_budget_eq_zero {subject : Subject} {deltas : Payload}
    {ctx : OperationContext} (hn : c.nodes.get? seat = some n) (hctx : ctx.cancelled = false)
    (hbudget : ctx.budget = 0) : exec (announce seat subject deltas ctx) c = (.ok (), c) := by
  have hsilent : (exec (sending push seat fun st => st.propagate subject deltas ctx) c).2 = c := by
    simp only [sending, exec_bind, exec_get, hn, Station.propagate, exec_liftExcept,
      ensureActive_of_not_cancelled hctx, hbudget, if_true, exec_pure]
  exact Prod.ext rfl hsilent

end Cluster

end DeltaRing
