import DeltaRing.Proofs.Cluster.Cascade
import DeltaRing.Proofs.Cluster.Rerouting
import DeltaRing.Proofs.Wire.Records
import Mathlib.Algebra.Order.BigOperators.Group.List

/-!
The cascade of an operation.

What the nodes do with a batch is a cascade if nothing is parked, for then no call sends anything
but the batch: what a node parks meanwhile is for peers that it does not call again. And a call
finds fuel for the whole budget that it carries. So all that holds of cascades holds of the pushes
that an operation sets off.
-/

namespace DeltaRing

open DeltaRing.Action

namespace Cluster

variable {r : ReplicaId} {batch : Payload} {ids : List NodeId} {f : Forward} {ws : List NodeInfo}
  {log : List Forward} {c c₁ c' : Cluster} {seat next : Seat} {n : Node}

/-! ### Sending -/

/-- The node at a seat has changed its outbox, but not what it owes others than one peer. -/
structure NotedOf (seat : Seat) (peer : NodeId) (c c' : Cluster) : Prop
    extends Noted seat c c' where
  owes : ∀ id ≠ peer, c'.owes seat id = c.owes seat id

variable {call : PushCall} {w : NodeInfo} {p : Push} {result : Except ClusterError MergeResult}

lemma noted_setOutbox (call : PushCall) (seat : Seat) (n : Node) (outbox : Outbox) (c : Cluster) :
    Noted seat c ((station call seat n).setOutbox outbox c) where
  world := rfl
  lasting := lasting_setOutbox call seat n outbox
  others s hs := by simp [station, SortedMap.modify, Ne.symm hs]

lemma owes_setOutbox (call : PushCall) (n : Node) {outbox : Outbox} {id : NodeId}
    (hsame : outbox.retry.queue id = ((station call seat n).outbox c).retry.queue id) :
    ((station call seat n).setOutbox outbox c).owes seat id = c.owes seat id := by
  cases hn : c.nodes.get? seat with
  | none => simp [owes, station, SortedMap.modify, hn]
  | some m =>
    simp only [station, SortedMap.getD, hn, Option.getD_some] at hsame
    simp [owes, station, SortedMap.modify, hn, hsame]

instance {peer : NodeId} : IsPreorder Cluster (NotedOf seat peer) where
  refl c := ⟨refl_of (Noted seat) c, fun _ _ => rfl⟩
  trans _ _ _ h h' := ⟨trans_of (Noted seat) h.toNoted h'.toNoted, fun id hid =>
    (h'.owes id hid).trans (h.owes id hid)⟩

lemma notedOf_modifyFailures (call : PushCall) (seat : Seat) (n : Node) (peer : NodeId)
    (f : Nat → FailureDetector → FailureDetector) :
    KeepsState (NotedOf seat peer) ((station call seat n).modifyFailures f) := fun c =>
  ⟨noted_setOutbox call seat n _ c, fun _ _ => owes_setOutbox call n rfl⟩

lemma notedOf_modifyRetry (call : PushCall) (seat : Seat) (n : Node) {peer : NodeId}
    {f : RetryBuffer NodeId Push → RetryBuffer NodeId Push}
    (hf : ∀ b, ∀ id ≠ peer, (f b).queue id = b.queue id) :
    KeepsState (NotedOf seat peer) ((station call seat n).modifyRetry f) := fun c =>
  ⟨noted_setOutbox call seat n _ c, fun id hid => owes_setOutbox call n (hf _ id hid)⟩

lemma notedOf_park (call : PushCall) (seat : Seat) (n : Node) (w : NodeInfo) (p : Push) :
    KeepsState (NotedOf seat w.id) ((station call seat n).park w p) := by
  refine notedOf_modifyRetry call seat n fun b id hid => ?_
  rw [RetryBuffer.push]
  split <;> simp [RetryBuffer.queue, SortedMap.getD, SortedMap.get?_insert_of_ne hid]

/-- Nothing is sent before a push to a peer for which nothing is parked. -/
lemma notedOf_flush (call : PushCall) (hn : c.nodes.get? seat = some n) (m : Node)
    (howes : c.owes seat w.id = []) :
    NotedOf seat w.id c (((station call seat m).flush w).run c).2 := by
  rw [owes_of_get? hn] at howes
  have hparked : ((station call seat m).outbox c).retry.queue w.id = [] := by
    simp only [station, SortedMap.getD, hn, Option.getD_some]
    exact howes
  rw [Station.run_flush_of_queue_eq_nil _ hparked]
  refine notedOf_modifyRetry call seat m (fun b id hid => ?_) c
  simp [RetryBuffer.drain, RetryBuffer.queue, SortedMap.getD, SortedMap.get?_erase_of_ne hid]

lemma notedOf_deliver (call : PushCall) (hn : c.nodes.get? seat = some n) (m : Node)
    (howes : c.owes seat w.id = []) (hctx : p.ctx.cancelled = false) :
    ∃ c₀, NotedOf seat w.id c c₀ ∧ NotedOf seat w.id (exec (call m.info.address w p) c₀).2
      (exec ((station call seat m).deliver w p) c).2 := by
  refine ⟨_, notedOf_flush call hn m howes, ?_⟩
  rw [Station.exec_deliver _ hctx]
  exact Station.keeps_noting (notedOf_modifyFailures call seat m w.id)
    (notedOf_park call seat m w) _ _

/-! ### What the nodes do is a cascade -/

/-- The calls find fuel enough for a budget. -/
def Nests (call : PushCall) (budget : Nat) : Prop :=
  ∀ caller w p c, p.ctx.budget = budget → ∃ depth, budget ≤ depth ∧
    exec (call caller w p) c = exec (do
      let seat ← connect caller w.address p.ctx
      receive (pushWithin depth) seat p) c

lemma nests_pushWithin {budget depth : Nat} (h : budget < depth) :
    Nests (pushWithin depth) budget := by
  obtain ⟨depth, rfl⟩ := Nat.exists_eq_add_one_of_ne_zero (Nat.ne_zero_of_lt h)
  exact fun _ _ _ _ _ => ⟨depth, Nat.le_of_lt_succ h, rfl⟩

lemma nests_push (budget : Nat) : Nests push budget := by
  intro caller w p c hbudget
  refine ⟨p.ctx.budget + c.parkedBudget, by omega, ?_⟩
  have hdepth : c.depthBound p.ctx.budget = p.ctx.budget + c.parkedBudget + 1 := by
    rw [depthBound]
    omega
  rw [push, exec_bind, exec_get]
  simp only [hdepth]
  rfl

def Follows (ids : List NodeId) (r : ReplicaId) (batch : Payload) (budget : Nat) : Prop :=
  ∀ (call : PushCall) (f : Forward) (n : Node) (c : Cluster) (ws : List NodeInfo),
    Nests call budget → f.here = n.info → f.ctx.budget = budget → f.ctx.cancelled = false →
    Calm ids r batch c → HeardAt r batch c f.seat → (ws.Pairwise fun w w' => w.id ≠ w'.id) →
    (∀ w ∈ ws, c.owes f.seat w.id = []) →
    ∃ log, Cascade r batch f ws c log
      (((station call f.seat n).deliverAll ⟨.replica r, batch, f.ctx⟩ ws).run c).2

lemma owes_parkAll (call : PushCall) (n : Node) (p : Push) {id : NodeId} {peers : List NodeInfo}
    (hpeers : ∀ w ∈ peers, w.id ≠ id) (c : Cluster) :
    ((peers.forM fun w => (station call seat n).park w p).run c).2.owes seat id =
      c.owes seat id := by
  induction peers generalizing c with
  | nil => rfl
  | cons w peers ih =>
    have hfirst := (notedOf_park call seat n w p c).owes id (hpeers w List.mem_cons_self).symm
    exact (ih (fun w hw => hpeers w (List.mem_cons_of_mem _ hw)) _).trans hfirst

/-- A node that owes nothing forwards a batch: to push it is a cascade. -/
lemma exists_cascade_pushAll {budget : Nat} (hfollows : Follows ids r batch budget)
    (hnests : Nests call budget) {ctx : OperationContext} (hbudget : ctx.budget = budget + 1)
    (hctx : ctx.cancelled = false) (hc : Calm ids r batch c) (hn : c.nodes.get? seat = some n)
    (hheard : HeardAt r batch c seat) (howes : ∀ id, c.owes seat id = []) (depth : Nat) :
    ∃ log, Cascade r batch (forwardOf c seat n r ctx depth) (forwardOf c seat n r ctx depth).peers c
      log (exec ((station call seat n).pushAll (.replica r) (n.distributor.writeReplicas r) batch
        ctx) c).2 := by
  rw [Station.exec_pushAll]
  set p := (station call seat n).outgoing (.replica r) batch ctx with hp
  set down := (station call seat n).parkedFor c (n.distributor.writeReplicas r) ctx with hdown
  set c₀ := ((down.forM fun w => (station call seat n).park w p.detached).run c).2 with hc₀
  have hnoted : Noted seat c c₀ := keepsState_forM
    (fun w c => (notedOf_park call seat n w p.detached c).toNoted) down c
  have hspread := hc.spread_noted hheard hnoted
  have hsound := sound_forwardOf (hc.placed seat n hn) c seat ctx depth
  -- what is parked is for nodes that are marked, and those are no targets
  have howes₀ : ∀ w ∈ (forwardOf c seat n r ctx depth).peers, c₀.owes seat w.id = [] := by
    intro w hw
    have hcandidate := (hc.placed seat n hn).picks.candidate (List.mem_filter.mp hw).1
    have hfree : (station push seat n).isUnreachable c w.id = false := by
      simpa using (List.mem_filter.mp hcandidate).2
    rw [hc₀, owes_parkAll call n _ (fun w' hw' heq => ?_) c, howes]
    have hmarked : (station push seat n).isUnreachable c w'.id = true := (List.mem_filter.mp hw').2
    rw [heq, hfree] at hmarked
    cases hmarked
  have hbudget' : (forwardOf c seat n r ctx depth).ctx.budget = budget := by
    change ctx.budget - 1 = budget
    omega
  obtain ⟨log, hcascade⟩ := hfollows call (forwardOf c seat n r ctx depth) n c₀ _ hnests rfl
    hbudget' hctx hspread.calm (hspread.heard _ hheard) hsound.distinct howes₀
  exact ⟨log, hcascade.noted hnoted⟩

lemma owes_of_exec_merge (hc : Calm ids r batch c) {result : Except ClusterError MergeResult}
    (hmerge : exec (act next (Node.merge (.replica r) batch)) c = (result, c')) (seat : Seat)
    (id : NodeId) : c'.owes seat id = c.owes seat id := by
  cases hn : c.nodes.get? next with
  | none =>
    rw [exec_act_gone hn] at hmerge
    cases hmerge
    rfl
  | some n =>
    rw [exec_act hn] at hmerge
    obtain rfl := (congrArg Prod.snd hmerge).symm
    by_cases hs : seat = next
    · subst hs
      rw [owes_of_get? SortedMap.get?_insert_self, ((hc.placed seat n hn).merge batch).2,
        owes_of_get? hn]
    · simp only [owes, SortedMap.get?_insert_of_ne hs]

/-- A node pushes the batch on if it was news and there is budget left. -/
lemma exec_receive {result : Except ClusterError MergeResult}
    (hmerge : exec (act seat (Node.merge p.subject p.deltas)) c = (result, c₁)) :
    (exec (receive call seat p) c).2 =
      if result = .ok .updated ∧ 0 < p.ctx.budget then
        (exec (tryPropagate call seat p.subject p.deltas p.ctx) c₁).2
      else c₁ := by
  cases result with
  | error e =>
    rw [receive, exec_bind_error hmerge, if_neg (by simp)]
  | ok result =>
    rw [receive, exec_bind_ok hmerge]
    cases result with
    | unchanged => rfl
    | updated =>
      by_cases hbudget : 0 < p.ctx.budget
      · simp only [MergeResult.isUpdated, hbudget, decide_true, Bool.and_self, if_true, and_self]
        rfl
      · simp only [hbudget, decide_false, Bool.and_false, Bool.false_eq_true, and_false, if_false,
          exec_pure]

/-- A call begins a cascade. It spreads the batch and leaves alone what the caller owes. -/
lemma exists_cascade_call {budget : Nat}
    (hprevious : ∀ budget', budget = budget' + 1 → Follows ids r batch budget')
    (hnests : Nests call budget) (hbudget : f.ctx.budget = budget)
    (hctx : f.ctx.cancelled = false) (hc : Calm ids r batch c) (hheard : HeardAt r batch c f.seat)
    (hcalled : (exec (call f.here.address w ⟨.replica r, batch, f.ctx⟩) c).2 = c') :
    ∃ log, Spread ids r batch f.seat c log c' ∧ (∀ id, c'.owes f.seat id = c.owes f.seat id) ∧
      ∀ ws log' c'', Cascade r batch f ws c' log' c'' →
        Cascade r batch f (w :: ws) c (log ++ log') c'' := by
  obtain ⟨depth, hdepth, hcall⟩ := hnests f.here.address w ⟨.replica r, batch, f.ctx⟩ c hbudget
  rw [hcall] at hcalled
  have hstart := refl_of (Noted f.seat) c
  cases hconnect : exec (connect f.here.address w.address f.ctx) c with
  | mk reached c₁ =>
    have h₁ : Spread ids r batch f.seat c [] c₁ := hc.spread_connect hctx hconnect
    have howes₁ : ∀ id, c₁.owes f.seat id = c.owes f.seat id := by
      rw [eq_of_exec_connect hctx hconnect]
      exact fun _ => rfl
    cases reached with
    | error e =>
      rw [exec_bind_error hconnect] at hcalled
      subst hcalled
      exact ⟨[], h₁, howes₁, fun ws log' c'' hrest => .unreached hstart hconnect hrest⟩
    | ok next =>
      rw [exec_bind_ok hconnect] at hcalled
      cases hmerge : exec (act next (Node.merge (.replica r) batch)) c₁ with
      | mk result c₂ =>
        have hmerged : Spread ids r batch f.seat c₁ [] c₂ := h₁.calm.spread_merge hmerge
        have howes₂ := owes_of_exec_merge h₁.calm hmerge
        rw [exec_receive (p := ⟨.replica r, batch, f.ctx⟩) hmerge] at hcalled
        split at hcalled
        · rename_i hnews
          obtain ⟨rfl, hpositive⟩ := hnews
          obtain ⟨hfresh, m, hm, hholds⟩ := h₁.calm.news_of_merge hmerge
          have hheard₂ : HeardAt r batch c₂ next := ⟨m, hm, hholds⟩
          have hself : f.seat ≠ next := fun heq => hfresh (heq ▸ h₁.heard _ hheard)
          obtain ⟨budget', rfl⟩ := Nat.exists_eq_add_one_of_ne_zero (hbudget ▸ hpositive.ne')
          obtain ⟨log, hnested⟩ := exists_cascade_pushAll (hprevious budget' rfl)
            (nests_pushWithin hdepth) hbudget hctx hmerged.calm hm hheard₂
            (fun id => (howes₂ next id).trans (h₁.calm.owesNothing next hfresh id)) (f.depth + 1)
          rw [exec_tryPropagate_of_get? _ hm hctx hpositive.ne', peersFor_station _ hm] at hcalled
          rw [hcalled] at hnested
          have hinner := hnested.spread hmerged.calm hheard₂ hctx
          have hforward : Spread ids r batch f.seat c₁
              [forwardOf c₂ next m r f.ctx (f.depth + 1)] c₂ :=
            hmerged.forward hfresh hheard₂ hm rfl
          refine ⟨_, h₁.append (hforward.append_of hinner (.inr hfresh)), fun id => ?_,
            fun ws log' c'' hrest =>
              .passedOn hstart hconnect hmerge hpositive hm rfl hnested hrest⟩
          have hkept := hinner.kept f.seat hself (hmerged.heard _ (h₁.heard _ hheard))
          rw [owes, hkept, ← owes, howes₂, howes₁]
        · rename_i hquiet
          subst hcalled
          refine ⟨[], h₁.append hmerged, fun id => (howes₂ f.seat id).trans (howes₁ id),
            fun ws log' c'' hrest => .kept hstart hconnect hmerge (fun heq => ?_) hrest⟩
          exact Nat.eq_zero_of_not_pos fun hpositive => hquiet ⟨heq, hpositive⟩

lemma follows_of_previous {budget : Nat}
    (hprevious : ∀ budget', budget = budget' + 1 → Follows ids r batch budget') :
    Follows ids r batch budget := by
  intro call f n c ws hnests hhere hbudget hctx hc hheard hdistinct howes
  induction ws generalizing c with
  | nil => exact ⟨[], .done (refl_of (Noted f.seat) c)⟩
  | cons w ws ih =>
    obtain ⟨hw, hdistinct⟩ := List.pairwise_cons.mp hdistinct
    obtain ⟨m, hm, -⟩ := id hheard
    obtain ⟨c₀, hbefore, hafter⟩ := notedOf_deliver (p := ⟨.replica r, batch, f.ctx⟩) call hm n
      (howes w List.mem_cons_self) hctx
    rw [← hhere] at hafter
    rw [Station.run_deliverAll_cons]
    generalize (exec ((station call f.seat n).deliver w ⟨.replica r, batch, f.ctx⟩) c).2 = c₂
      at hafter
    have h₀ := hc.spread_noted hheard hbefore.toNoted
    obtain ⟨log, h₁, howes₁, hcascade⟩ := exists_cascade_call hprevious hnests hbudget hctx
      h₀.calm (h₀.heard _ hheard) rfl
    have hheard₁ := h₁.heard _ (h₀.heard _ hheard)
    have h₂ := h₁.calm.spread_noted hheard₁ hafter.toNoted
    have howes₂ : ∀ w' ∈ ws, c₂.owes f.seat w'.id = [] := by
      intro w' hw'
      have hne := (hw w' hw').symm
      rw [hafter.owes _ hne, howes₁, hbefore.owes _ hne]
      exact howes w' (List.mem_cons_of_mem w hw')
    obtain ⟨log', hrest⟩ := ih c₂ h₂.calm (h₂.heard _ hheard₁) hdistinct howes₂
    exact ⟨log ++ log', (hcascade ws log' _ (hrest.noted hafter.toNoted)).noted hbefore.toNoted⟩

lemma follows (ids : List NodeId) (r : ReplicaId) (batch : Payload) (budget : Nat) :
    Follows ids r batch budget := by
  induction budget with
  | zero => exact follows_of_previous nofun
  | succ budget ih =>
    refine follows_of_previous fun budget' heq => ?_
    obtain rfl := Nat.succ.inj heq
    exact ih

/-! ### Bounds -/

def nodeIds (c : Cluster) : List NodeId := c.nodes.values.map fun n => n.info.id

lemma nodeIds_insert {n' : Node} (hn : c.nodes.get? seat = some n) (hinfo : n'.info = n.info) :
    nodeIds { c with nodes := c.nodes.insert seat n' } = c.nodeIds := by
  have hmap (m : SortedMap Seat Node) :
      (m.map fun _ n => n.info.id).values = m.values.map fun n => n.info.id := by
    simp [SortedMap.values, SortedMap.map]
  rw [nodeIds, nodeIds, ← hmap, ← hmap]
  congr 1
  ext s : 1
  by_cases hs : s = seat
  · subst hs
    simp [hn, hinfo]
  · simp [SortedMap.get?_insert_of_ne hs]

lemma size_nodes (c : Cluster) : c.nodes.size = c.nodeIds.length := by
  simp [SortedMap.size, nodeIds, SortedMap.values]

/-- Every node has a built-in strategy and has nothing parked. The plans may be any. -/
structure Prepared (c : Cluster) : Prop where
  named : ∀ seat n, c.nodes.get? seat = some n → n.Named
  strategy : ∀ seat n, c.nodes.get? seat = some n → Selection.BuiltIn n.propagation
  nothingParked : ∀ seat n, c.nodes.get? seat = some n → ∀ peer, n.outbox.retry.queue peer = []

/-- Whom a node may push to: the writers by its plan, and if it does not host the instance, those by
the plan that it makes when it looks for it. -/
def plannedBy (r : ReplicaId) (n : Node) : List NodeInfo :=
  n.distributor.writeReplicas r ++
    if n.hosted.contains r.instanceId then [] else n.refreshTopology.1.distributor.writeReplicas r

def knownIds (r : ReplicaId) (c : Cluster) : List NodeId :=
  c.nodeIds ++ c.nodes.values.flatMap fun n => (plannedBy r n).map NodeInfo.id

lemma mem_nodeIds (hn : c.nodes.get? seat = some n) : n.info.id ∈ c.nodeIds :=
  List.mem_map_of_mem (SortedMap.mem_values.mpr ⟨seat, hn⟩)

lemma mem_knownIds (hn : c.nodes.get? seat = some n) {w : NodeInfo} (hw : w ∈ plannedBy r n) :
    w.id ∈ c.knownIds r :=
  List.mem_append_right _ (List.mem_flatMap.mpr
    ⟨n, SortedMap.mem_values.mpr ⟨seat, hn⟩, List.mem_map_of_mem hw⟩)

/-- What a node sets off by announcing deltas: nothing if there are none or there is no budget. -/
inductive Announces {t : CrdtType} (r : ReplicaId) (ds : List t.Delta) (seat : Seat) (n : Node)
    (ctx : OperationContext) (c : Cluster) : List Forward → Cluster → Prop
  | nothing : ds = [] ∨ ctx.budget = 0 → Announces r ds seat n ctx c [] c
  | spread {log : List Forward} {c' : Cluster} : ds ≠ [] → 0 < ctx.budget →
    Cascade r (Wire.encode ds) (forwardOf c seat n r ctx 1) (forwardOf c seat n r ctx 1).peers c log
      c' →
    Announces r ds seat n ctx c (forwardOf c seat n r ctx 1 :: log) c'

/-- All that is forwarded in a cascade: a call that is so many calls from the origin carries as much
less budget; no node forwards twice, none to itself or to the one that it has the batch from, none
twice to a peer; all forwards but the first come of calls of others; the calls are those that the
cluster counts, and not more of them are for nodes of the cluster than there are ordered pairs of
nodes, so not more in all if the plans name nobody else. -/
structure Bounded (ids : List NodeId) (budget : Nat) (c : Cluster) (log : List Forward)
    (c' : Cluster) : Prop where
  budget : ∀ f ∈ log, 0 < f.depth ∧ f.depth + f.ctx.budget = budget
  nodes : ∀ f ∈ log, ∃ n, c.nodes.get? f.seat = some n ∧ n.info = f.here
  once : (log.map Forward.seat).Nodup
  sound : ∀ f ∈ log, f.Sound ids
  caused : ∀ f ∈ log, f.depth = 1 ∨ ∃ f' ∈ log, Caused c.services f' f
  counted : ∀ address, c'.callsTo address =
    c.callsTo address + ((log.flatMap Forward.peers).map NodeInfo.address).count address
  few : ((log.flatMap Forward.peers).filter fun w => w.id ∈ c.nodeIds).length ≤
    c.nodes.size * (c.nodes.size - 1)
  fewInAll : ids ⊆ c.nodeIds →
    (log.flatMap Forward.peers).length ≤ c.nodes.size * (c.nodes.size - 1)

namespace Prepared

lemma placed (hc : Prepared c) (r : ReplicaId) (hn : c.nodes.get? seat = some n) :
    n.Placed (c.knownIds r) r where
  named := hc.named seat n hn
  picks := (hc.strategy seat n hn).picks
  here := List.mem_append_left _ (mem_nodeIds hn)
  planned w hw := mem_knownIds hn (List.mem_append_left _ hw)
  replanned hnone w hw := by
    refine mem_knownIds hn (List.mem_append_right _ ?_)
    rwa [SortedMap.contains, hnone, if_neg (by simp)]

lemma owesNothing (hc : Prepared c) (seat : Seat) (peer : NodeId) : c.owes seat peer = [] := by
  cases hn : c.nodes.get? seat with
  | none => simp only [owes, hn]
  | some n => rw [owes_of_get? hn, hc.nothingParked seat n hn]

lemma owes_setHosted (hc : Prepared c) (hn : c.nodes.get? seat = some n) (h : Hosted)
    (seat' : Seat) (peer : NodeId) :
    owes { c with nodes := c.nodes.insert seat (n.setHosted h) } seat' peer = [] := by
  by_cases hs : seat' = seat
  · subst hs
    rw [owes_of_get? SortedMap.get?_insert_self]
    exact hc.nothingParked seat' n hn peer
  · rw [owes, SortedMap.get?_insert_of_ne hs]
    exact hc.owesNothing seat' peer

/-- A node of the cluster changes what it hosts. -/
lemma calm_setHosted (hc : Prepared c) (r : ReplicaId) (hn : c.nodes.get? seat = some n)
    (h : Hosted) (batch : Payload) :
    Calm (c.knownIds r) r batch { c with nodes := c.nodes.insert seat (n.setHosted h) } where
  placed s m hm := by
    by_cases hs : s = seat
    · subst hs
      cases SortedMap.get?_insert_self.symm.trans hm
      exact (hc.placed r hn).setHosted h
    · exact hc.placed r ((SortedMap.get?_insert_of_ne hs).symm.trans hm)
  owesNothing s _ peer := hc.owes_setHosted hn h s peer

end Prepared

lemma length_peers_le (h : f.Sound ids) (hhere : f.here.id ∈ c.nodeIds) :
    (f.peers.filter fun w => w.id ∈ c.nodeIds).length ≤ c.nodes.size - 1 := by
  set called := f.peers.filter fun w => w.id ∈ c.nodeIds
  have hnodup : (f.here.id :: called.map NodeInfo.id).Nodup := by
    refine List.nodup_cons.mpr ⟨fun hmem => ?_, List.pairwise_map.mpr (h.distinct.filter _)⟩
    obtain ⟨w, hw, hid⟩ := List.mem_map.mp hmem
    exact (h.notBack w (List.mem_of_mem_filter hw)).1 hid
  have hsubset : f.here.id :: called.map NodeInfo.id ⊆ c.nodeIds := by
    refine List.cons_subset.mpr ⟨hhere, fun id hid => ?_⟩
    obtain ⟨w, hw, rfl⟩ := List.mem_map.mp hid
    exact of_decide_eq_true (List.mem_filter.mp hw).2
  have hlength := (hnodup.subperm hsubset).length_le
  simp only [List.length_cons, List.length_map, nodeIds, SortedMap.values] at hlength
  rw [SortedMap.size]
  omega

lemma exists_announces {t : CrdtType} {ds : List t.Delta} {ctx : OperationContext}
    (hctx : ctx.cancelled = false) (hc : Calm ids r (Wire.encode ds) c)
    (hn : c.nodes.get? seat = some n) (hheard : HeardAt r (Wire.encode ds) c seat)
    (howes : ∀ peer, c.owes seat peer = []) :
    ∃ log, Announces r ds seat n ctx c log (if ds.isEmpty then c
      else (exec (announce seat (.replica r) (Wire.encode ds) ctx) c).2) := by
  by_cases hds : ds = []
  · subst hds
    exact ⟨[], .nothing (.inl rfl)⟩
  · have hnonempty : ¬(ds.isEmpty = true) := by simpa using hds
    rw [if_neg hnonempty]
    by_cases hbudget : ctx.budget = 0
    · rw [exec_announce_of_budget_eq_zero hn hctx hbudget]
      exact ⟨[], .nothing (.inr hbudget)⟩
    · obtain ⟨budget, hsucc⟩ := Nat.exists_eq_add_one_of_ne_zero hbudget
      obtain ⟨log, hcascade⟩ := exists_cascade_pushAll (follows ids r (Wire.encode ds) budget)
        (nests_push budget) hsucc hctx hc hn hheard howes 1
      rw [announce, exec_tryPropagate_of_get? push hn hctx hbudget, peersFor_station push hn]
      exact ⟨_, .spread hds (Nat.pos_of_ne_zero hbudget) hcascade⟩

/-- Nodes that forward once make no more calls of each other than there are pairs of them. -/
lemma length_calls_le (hnodes : ∀ f ∈ log, ∃ n, c.nodes.get? f.seat = some n ∧ n.info = f.here)
    (honce : (log.map Forward.seat).Nodup) (hsound : ∀ f ∈ log, f.Sound ids) :
    ((log.flatMap Forward.peers).filter fun w => w.id ∈ c.nodeIds).length ≤
      c.nodes.size * (c.nodes.size - 1) := by
  have hforwards : log.length ≤ c.nodes.size := by
    have hkeys : log.map Forward.seat ⊆ c.nodes.keys := by
      intro s hs
      obtain ⟨f, hf, rfl⟩ := List.mem_map.mp hs
      obtain ⟨n, hn, -⟩ := hnodes f hf
      exact SortedMap.mem_keys.mpr (Option.isSome_of_eq_some hn)
    simpa [SortedMap.keys, SortedMap.size] using (honce.subperm hkeys).length_le
  have hcalls : ∀ f ∈ log,
      (f.peers.filter fun w => w.id ∈ c.nodeIds).length ≤ c.nodes.size - 1 := by
    intro f hf
    obtain ⟨n, hn, hhere⟩ := hnodes f hf
    exact length_peers_le (hsound f hf) (hhere ▸ mem_nodeIds hn)
  calc ((log.flatMap Forward.peers).filter fun w => w.id ∈ c.nodeIds).length
      = (log.map fun f => (f.peers.filter fun w => w.id ∈ c.nodeIds).length).sum := by
        rw [List.filter_flatMap, List.length_flatMap]
    _ ≤ log.length * (c.nodes.size - 1) := by
        simpa using List.sum_le_card_nsmul _ _ (List.forall_mem_map.mpr hcalls)
    _ ≤ c.nodes.size * (c.nodes.size - 1) := Nat.mul_le_mul_right _ hforwards

lemma Announces.bounded {t : CrdtType} {ds : List t.Delta} {ctx : OperationContext}
    (h : Announces r ds seat n ctx c log c') (hctx : ctx.cancelled = false)
    (hc : Calm ids r (Wire.encode ds) c) (hn : c.nodes.get? seat = some n)
    (hheard : HeardAt r (Wire.encode ds) c seat) : Bounded ids ctx.budget c log c' := by
  cases h with
  | nothing _ =>
    exact ⟨nofun, nofun, .nil, nofun, nofun, fun _ => rfl, Nat.zero_le _, fun _ => Nat.zero_le _⟩
  | @spread log _ _ hbudget hcascade =>
    have hspread := hcascade.spread hc hheard hctx
    have hsound : ∀ f ∈ forwardOf c seat n r ctx 1 :: log, f.Sound ids :=
      List.forall_mem_cons.mpr ⟨sound_forwardOf (hc.placed seat n hn) c seat ctx 1, hspread.sound⟩
    have hnodes : ∀ f ∈ forwardOf c seat n r ctx 1 :: log,
        ∃ m, c.nodes.get? f.seat = some m ∧ m.info = f.here :=
      List.forall_mem_cons.mpr ⟨⟨n, hn, rfl⟩, fun f hf => (hspread.news f hf).1⟩
    have honce : ((forwardOf c seat n r ctx 1 :: log).map Forward.seat).Nodup := by
      refine List.nodup_cons.mpr ⟨fun hmem => ?_, hspread.once⟩
      obtain ⟨f, hf, heq⟩ := List.mem_map.mp hmem
      exact (hspread.news f hf).2.1 (heq ▸ hheard)
    have hfew := length_calls_le hnodes honce hsound
    refine ⟨List.forall_mem_cons.mpr ⟨⟨Nat.one_pos, ?_⟩, fun f hf => ?_⟩, hnodes, honce, hsound,
      List.forall_mem_cons.mpr ⟨.inl rfl, fun f hf => .inr ?_⟩, fun address => ?_, hfew,
      fun hids => ?_⟩
    · change 1 + (ctx.budget - 1) = ctx.budget
      omega
    · have hhop := hcascade.budget f hf
      change 1 < f.depth ∧ f.depth + f.ctx.budget = 1 + (ctx.budget - 1) at hhop
      omega
    · exact hcascade.caused hctx (fun _ hw => hw) f hf
    · exact hcascade.callsTo hctx address
    · rwa [List.filter_eq_self.mpr fun w hw => ?_] at hfew
      obtain ⟨f, hf, hwf⟩ := List.mem_flatMap.mp hw
      exact decide_eq_true (hids ((hsound f hf).named w hwf))

lemma Bounded.of_insert {budget : Nat} {n' : Node} (hn : c.nodes.get? seat = some n)
    (hinfo : n'.info = n.info)
    (h : Bounded ids budget { c with nodes := c.nodes.insert seat n' } log c') :
    Bounded ids budget c log c' where
  budget := h.budget
  nodes f hf := by
    obtain ⟨m, hm, hhere⟩ := h.nodes f hf
    by_cases hs : f.seat = seat
    · rw [hs] at hm ⊢
      cases SortedMap.get?_insert_self.symm.trans hm
      exact ⟨n, hn, hinfo.symm.trans hhere⟩
    · exact ⟨m, (SortedMap.get?_insert_of_ne hs).symm.trans hm, hhere⟩
  once := h.once
  sound := h.sound
  caused := h.caused
  counted := h.counted
  few := by
    have hfew := h.few
    rwa [size_nodes, nodeIds_insert hn hinfo, ← size_nodes] at hfew
  fewInAll hids := by
    have hfew := h.fewInAll (by rwa [nodeIds_insert hn hinfo])
    rwa [size_nodes, nodeIds_insert hn hinfo, ← size_nodes] at hfew

/-- **Cascades are bounded.** Let the nodes of a cluster have any plans, any marks, any built-in
strategies and nothing parked, and let any addresses be cut off. When a node applies an operation,
the calls that push its deltas form a cascade in which no call is further from the origin than the
budget of the operation, each carries what is left of that, every node forwards the deltas once at
most, and there are no more calls of nodes than ordered pairs of them. -/
theorem cascades_are_bounded {t : CrdtType} {id : InstanceId} {op : t.Operation}
    {shards : List t.State} {s : t.State} {ctx : OperationContext} (call : OperationCall)
    (replicaCount : Nat) (hctx : ctx.cancelled = false) (hn : c.nodes.get? seat = some n)
    (hs : shards[shardOfOperation op shards.length]? = some s)
    (hwrites :
      n.distributor.isWriteReplica ⟨id, shardOfOperation op shards.length⟩ n.info.id = true)
    (hc : Prepared c)
    (hfits : LawfulWire.Fits (Operable.apply s n.info.id op).2.2) :
    let applied := Operable.apply s n.info.id op
    let n' := n.setHosted
      ⟨id, t, replicaCount, shards.set (shardOfOperation op shards.length) applied.1⟩
    let changed := { c with nodes := c.nodes.insert seat n' }
    ∃ log c', exec (applyBy call seat ⟨id, t, replicaCount, shards⟩ op ctx) c =
        (.ok applied.2.1, c') ∧
      Announces ⟨id, shardOfOperation op shards.length⟩ applied.2.2 seat n' ctx changed log c' ∧
      Bounded (c.knownIds ⟨id, shardOfOperation op shards.length⟩) ctx.budget c log c' := by
  intro applied n' changed
  have hsame : (if n.config.awaitPropagation then ctx else ctx.detached) = ctx := by
    have hdetached : ctx.detached = ctx := by rw [OperationContext.detached, ← hctx]
    rw [hdetached, ite_self]
  have hexec := exec_applyBy_of_isWriteReplica call replicaCount hctx hn hs hwrites
  simp only [afterApplying, hsame] at hexec
  have hget : changed.nodes.get? seat = some n' := SortedMap.get?_insert_self
  have hcalm := hc.calm_setHosted ⟨id, shardOfOperation op shards.length⟩ hn
    ⟨id, t, replicaCount, shards.set (shardOfOperation op shards.length) applied.1⟩
    (Wire.encode applied.2.2)
  have hheard : HeardAt ⟨id, shardOfOperation op shards.length⟩ (Wire.encode applied.2.2) changed
      seat := by
    refine ⟨n', hget, ?_⟩
    refine Node.holds_setShard (h := ⟨id, t, replicaCount, shards⟩) (r := ⟨id, _⟩) rfl
      (Hosted.shard_eq_ok.mpr hs) fun ds hds δ hδ => ?_
    obtain rfl := LawfulWire.eq_of_decode_encode hfits hds
    exact AbsorbingOperations.reflects_of_apply hδ
  obtain ⟨log, hannounces⟩ := exists_announces hctx hcalm hget hheard (hc.owes_setHosted hn _ seat)
  exact ⟨log, _, hexec, hannounces,
    .of_insert hn (rfl : n'.info = n.info) (hannounces.bounded hctx hcalm hget hheard)⟩

/-! ### Three nodes with plans that contradict each other -/

/-- Every node believes that it writes the set together with the next one. -/
def setCircle : Cluster :=
  let a : NodeInfo := ⟨"a", "mem://a"⟩
  let b : NodeInfo := ⟨"b", "mem://b"⟩
  let c : NodeInfo := ⟨"c", "mem://c"⟩
  trio (setHost a [a, b]) (setHost b [b, c]) (setHost c [c, a])

lemma prepared_setCircle : Prepared setCircle where
  named seat n hn := by
    rcases node_trio hn with ⟨-, rfl⟩ | ⟨-, rfl⟩ | ⟨-, rfl⟩ <;> exact named_setHost _ _
  strategy seat n hn := by
    rcases node_trio hn with ⟨-, rfl⟩ | ⟨-, rfl⟩ | ⟨-, rfl⟩ <;> exact .allNodes
  nothingParked seat n hn peer := by
    rcases node_trio hn with ⟨-, rfl⟩ | ⟨-, rfl⟩ | ⟨-, rfl⟩ <;> rfl

lemma knownIds_setCircle :
    setCircle.knownIds ⟨"t", shardOfOperation (t := .orSet .string) (OrSetOperation.add "x") 1⟩ ⊆
      setCircle.nodeIds := by
  have hids : setCircle.nodeIds = ["a", "b", "c"] := rfl
  have hplanned (here : NodeInfo) (writers : List NodeInfo) :
      plannedBy ⟨"t", shardOfOperation (t := .orSet .string) (OrSetOperation.add "x") 1⟩
        (setHost here writers) = writers := by
    have hhosted : (setHost here writers).hosted.contains "t" = true := rfl
    rw [plannedBy, writeReplicas_setHost, if_pos hhosted, List.append_nil]
  have hnames : ∀ n ∈ setCircle.nodes.values, ∀ w ∈ plannedBy
      ⟨"t", shardOfOperation (t := .orSet .string) (OrSetOperation.add "x") 1⟩ n,
        w.id ∈ setCircle.nodeIds := by
    intro n hn
    obtain ⟨seat, hn⟩ := SortedMap.mem_values.mp hn
    rw [hids]
    rcases node_trio hn with ⟨-, rfl⟩ | ⟨-, rfl⟩ | ⟨-, rfl⟩ <;> rw [hplanned] <;> decide
  refine List.append_subset.mpr ⟨List.Subset.refl _, fun id hid => ?_⟩
  obtain ⟨n, hn, hid⟩ := List.mem_flatMap.mp hid
  obtain ⟨w, hw, rfl⟩ := List.mem_map.mp hid
  exact hnames n hn w hw

/-- An addition at the first node with a budget of two is forwarded, and within bounds. -/
theorem addition_spreads_within_bounds :
    ∃ output log c', exec (applyBy Cluster.call 0 ⟨"t", .orSet .string, 1, [OrSet.empty]⟩
        (OrSetOperation.add "x") (.fresh "" 2)) setCircle = (.ok output, c') ∧
      log ≠ [] ∧ (log.flatMap Forward.peers).length ≤ 6 ∧ Bounded (setCircle.knownIds
        ⟨"t", shardOfOperation (t := .orSet .string) (OrSetOperation.add "x") 1⟩) 2 setCircle log
          c' := by
  have hwrites : (setHost ⟨"a", "mem://a"⟩
      [⟨"a", "mem://a"⟩, ⟨"b", "mem://b"⟩]).distributor.isWriteReplica
        ⟨"t", shardOfOperation (t := .orSet .string) (OrSetOperation.add "x") 1⟩ "a" = true := by
    rw [Distributor.isWriteReplica, writeReplicas_setHost]
    decide
  have hs : ([OrSet.empty] : List (OrSet String))[shardOfOperation (t := .orSet .string)
      (OrSetOperation.add "x") 1]? = some OrSet.empty :=
    getElem?_shardOfOperation_one (t := .orSet .string) (OrSetOperation.add "x") OrSet.empty
  have hfits : LawfulWire.Fits (α := List (OrSetDelta String))
      (Operable.apply (OrSet.empty : OrSet String) "a" (OrSetOperation.add "x")).2.2 := by
    intro δ hδ
    obtain rfl := List.mem_singleton.mp hδ
    exact ⟨(by decide : 1 < word64), trivial⟩
  have hn : setCircle.nodes.get? 0 =
      some (setHost ⟨"a", "mem://a"⟩ [⟨"a", "mem://a"⟩, ⟨"b", "mem://b"⟩]) := rfl
  have hctx : (OperationContext.fresh "" 2).cancelled = false := rfl
  obtain ⟨log, c', hexec, hannounces, hbounded⟩ := cascades_are_bounded (t := .orSet .string)
    Cluster.call 1 hctx hn hs hwrites prepared_setCircle hfits
  refine ⟨_, log, c', hexec, ?_, hbounded.fewInAll knownIds_setCircle, hbounded⟩
  rintro rfl
  cases hannounces with
  | nothing hnothing => exact hnothing.elim (List.cons_ne_nil _ _) (by decide : (2 : Nat) ≠ 0)

end Cluster

end DeltaRing
