import DeltaRing.Proofs.Cluster.Evolution
import DeltaRing.Proofs.Cluster.Rerouting
import DeltaRing.Proofs.Placement.Selection
import DeltaRing.Proofs.Replication.Absorption
import DeltaRing.Proofs.Wire.Records

/-!
A write reaches every write replica.

Let the nodes of a cluster agree on who writes a shard and be able to reach each other. An operation
that enters at any of them is then applied at a write replica, at once or after one forward, and
that one pushes its deltas to all others. Who gets a push is settled before the first is sent. So
neither what has been parked and is replayed before it, nor what the pushes set off at their
receivers, keeps it from anyone; and what a node has merged it does not lose.
-/

namespace DeltaRing

open DeltaRing.Action Relation

/-! ### Knowing deltas -/

/-- A state of the type reflects the deltas. -/
inductive Knows {t : CrdtType} (ds : List t.Delta) : (t' : CrdtType) → t'.State → Prop
  | intro {s : t.State} : (∀ δ ∈ ds, reflects (timestamp s) δ = true) → Knows ds t s

variable {t : CrdtType} {ds : List t.Delta} {r : ReplicaId} {batch : Payload}

lemma Node.stable_knows : Node.Stable (Knows ds) where
  mergeAll ds' hknows := by
    cases hknows with
    | intro h => exact .intro fun δ hδ => Retentive.reflects_mergeAll (h δ hδ)
  apply a op hknows := by
    cases hknows with
    | intro h => exact .intro fun δ hδ => HandsOutNews.reflects_apply (h δ hδ)

lemma Node.knows_merge {n : Node} (hn : n.Named) (hholds : n.Holds r (Knows ([] : List t.Delta)))
    (hds : Wire.decode batch = .ok ds) :
    ∃ result n', exec (merge (.replica r) batch) n = (.ok result, n') ∧ n'.Holds r (Knows ds) := by
  obtain ⟨⟨id, t', count, shards⟩, s, hh, hs, hknows⟩ := hholds
  cases hknows with
  | intro _ =>
    exact ⟨_, _, exec_merge_hosted hh hs hds,
      holds_setShard (hn _ _ hh) hs ⟨fun δ hδ => reflects_mergeAll_of_mem hδ⟩⟩

namespace Cluster

/-! ### Pushing to a node -/

variable {c c' : Cluster} {seat : Seat} {n : Node} {w : NodeInfo} {address : String} {p : Push}
  {P : (t : CrdtType) → t.State → Prop}

def Serves (c : Cluster) (address : String) (r : ReplicaId)
    (P : (t : CrdtType) → t.State → Prop) : Prop :=
  ∃ seat n, c.services.get? address = some seat ∧ c.nodes.get? seat = some n ∧ n.Named ∧ n.Holds r P

lemma Serves.evolves (h : c.Serves address r P) (hP : Node.Stable P) (hc : c.Evolves c') :
    c'.Serves address r P := by
  obtain ⟨seat, n, hserved, hn, hnamed, hholds⟩ := h
  obtain ⟨n', hn', hbecomes⟩ := hc.nodes seat n hn
  exact ⟨seat, n', hc.services ▸ hserved, hn', hbecomes.named hnamed,
    hholds.steps hP (hbecomes.steps hnamed)⟩

lemma Evolves.isReachable_eq (hc : c.Evolves c') (address : String) :
    c'.isReachable address = c.isReachable address := by
  rw [isReachable, isReachable, hc.cut]

/-- What a push needs to be merged by the peer that it is sent to. -/
structure Deliverable (c : Cluster) (caller : String) (r : ReplicaId) (t : CrdtType)
    (w : NodeInfo) : Prop where
  caller : c.isReachable caller = true
  reachable : c.isReachable w.address = true
  hosts : c.Serves w.address r (Knows ([] : List t.Delta))

variable {caller : String}

lemma Deliverable.evolves (h : c.Deliverable caller r t w) (hc : c.Evolves c') :
    c'.Deliverable caller r t w where
  caller := (hc.isReachable_eq _).trans h.caller
  reachable := (hc.isReachable_eq _).trans h.reachable
  hosts := h.hosts.evolves Node.stable_knows hc

structure Carries (p : Push) (r : ReplicaId) (ds : List t.Delta) : Prop where
  subject : p.subject = .replica r
  deltas : Wire.decode p.deltas = .ok ds
  active : p.ctx.cancelled = false

lemma exec_push_of_connect {c₁ : Cluster}
    (hconnect : exec (connect caller w.address p.ctx) c = (.ok seat, c₁)) :
    exec (push caller w p) c =
      exec (receive (pushWithin (p.ctx.budget + c.parkedBudget)) seat p) c₁ := by
  have hdepth : c.depthBound p.ctx.budget = p.ctx.budget + c.parkedBudget + 1 := by
    rw [depthBound]
    omega
  rw [push, exec_bind, exec_get]
  simp only [hdepth]
  rw [pushWithin, exec_bind_ok hconnect]

/-- The peer merges the push before anything else happens, and knows the deltas from then on. -/
lemma knows_push (hw : c.Deliverable caller r t w) (hp : Carries p r ds) :
    (exec (push caller w p) c).2.Serves w.address r (Knows ds) := by
  obtain ⟨seat, n, hserved, hn, hnamed, hholds⟩ := hw.hosts
  obtain ⟨result, n', hmerge, hknows⟩ := Node.knows_merge hnamed hholds hp.deltas
  have hconnect := exec_connect_of_reachable hp.active hw.caller hw.reachable hserved
  set c₁ := { c with calls := c.calls.alter w.address fun n => n.getD 0 + 1 }
  have hn₁ : c₁.nodes.get? seat = some n := hn
  have hmerged : exec (act seat (Node.merge p.subject p.deltas)) c₁ =
      (.ok result, { c₁ with nodes := c₁.nodes.insert seat n' }) := by
    rw [exec_act hn₁, hp.subject, hmerge]
  have hserves : Serves { c₁ with nodes := c₁.nodes.insert seat n' } w.address r (Knows ds) := by
    refine ⟨seat, n', hserved, SortedMap.get?_insert_self, ?_, hknows⟩
    have hbecomes := Node.keeps_merge (.replica r) p.deltas n
    rw [hmerge] at hbecomes
    exact hbecomes.named hnamed
  rw [exec_push_of_connect hconnect, receive, exec_bind_ok hmerged]
  refine hserves.evolves Node.stable_knows ?_
  split
  · exact (keeps_tryPropagate (keeps_pushWithin _) seat _ _ _).bind (fun _ => keeps_pure _) _
  · exact keeps_pure _ _

/-! ### Delivering to peers in turn -/

lemma knows_deliver (hw : c.Deliverable n.info.address r t w) (hp : Carries p r ds) :
    (exec ((station push seat n).deliver w p) c).2.Serves w.address r (Knows ds) := by
  have hrespects := respects_station keeps_push seat n
  have hflushed := hw.evolves ((hrespects.keepsState_flush w).lift c)
  rw [Station.exec_deliver _ hp.active]
  exact (knows_push hflushed hp).evolves Node.stable_knows (hrespects.keeps_noted w p _ _)

lemma knows_deliverAll {peers : List NodeInfo}
    (hpeers : ∀ w ∈ peers, c.Deliverable n.info.address r t w) (hp : Carries p r ds) :
    ∀ w ∈ peers,
      (((station push seat n).deliverAll p peers).run c).2.Serves w.address r (Knows ds) := by
  have hrespects := respects_station keeps_push seat n
  induction peers generalizing c with
  | nil => exact nofun
  | cons peer peers ih =>
    have hfirst : (exec ((station push seat n).deliver peer p) c).2.Serves peer.address r
        (Knows ds) := knows_deliver (hpeers peer List.mem_cons_self) hp
    have hdeliver := hrespects.keeps_deliver peer p c
    rw [Station.run_deliverAll_cons]
    generalize (exec ((station push seat n).deliver peer p) c).2 = c₁ at hfirst hdeliver
    refine List.forall_mem_cons.mpr ⟨?_, ih fun w hw => ?_⟩
    · exact hfirst.evolves Node.stable_knows (hrespects.keepsState_deliverAll p peers c₁)
    · exact (hpeers w (List.mem_cons_of_mem peer hw)).evolves hdeliver

/-- The peers that are to know what a node announces, up to their addresses. -/
lemma exists_mem_targets {peers : List NodeInfo} {ctx : OperationContext}
    (hn : c.nodes.get? seat = some n) (hall : n.propagation = Selection.allNodes)
    (hfree : ∀ id, n.outbox.failures.isUnreachable c.timer id = false) (hw : w ∈ peers)
    (hhere : w.id ≠ n.info.id) (horigin : ctx.origin ≠ some w.id) :
    ∃ w' ∈ (station push seat n).targets c peers ctx, w'.id = w.id := by
  have hcandidate : w ∈ ((station push seat n).eligible peers ctx).filter
      fun n' => !(station push seat n).isUnreachable c n'.id := by
    simp [Station.eligible, isUnreachable_station push hn, hfree, hw, hhere, horigin]
  obtain ⟨w', hw', hid⟩ := Selection.exists_mem_allNodes hcandidate hhere
  refine ⟨w', ?_, hid⟩
  rw [Station.targets, List.mem_filter]
  refine ⟨?_, by simpa [hid] using horigin⟩
  change w' ∈ n.propagation n.info _
  rwa [hall]

/-- All other write replicas know what a node announces, but the origin of the operation. -/
lemma knows_announce {ctx : OperationContext} (hn : c.nodes.get? seat = some n)
    (hall : n.propagation = Selection.allNodes)
    (hfree : ∀ id, n.outbox.failures.isUnreachable c.timer id = false)
    (hctx : ctx.cancelled = false) (hbudget : ctx.budget ≠ 0) (hds : Wire.decode batch = .ok ds)
    (hpeers : ∀ w ∈ n.distributor.writeReplicas r, c.Deliverable n.info.address r t w)
    (hw : w ∈ n.distributor.writeReplicas r) (hhere : w.id ≠ n.info.id)
    (horigin : ctx.origin ≠ some w.id) :
    ∃ w' ∈ n.distributor.writeReplicas r, w'.id = w.id ∧
      (exec (announce seat (.replica r) batch ctx) c).2.Serves w'.address r (Knows ds) := by
  obtain ⟨w', hw', hid⟩ := exists_mem_targets hn hall hfree hw hhere horigin
  have hsubset : ∀ w' ∈ (station push seat n).targets c (n.distributor.writeReplicas r) ctx,
      w' ∈ n.distributor.writeReplicas r := by
    intro w' hw'
    have hpicked := (List.mem_filter.mp hw').1
    change w' ∈ n.propagation n.info _ at hpicked
    rw [hall] at hpicked
    have hcandidate := Selection.picks_allNodes.candidate hpicked
    exact List.mem_of_mem_filter (List.mem_of_mem_filter hcandidate)
  refine ⟨w', hsubset w' hw', hid, ?_⟩
  rw [announce, exec_tryPropagate_of_get? push hn hctx hbudget, peersFor_station push hn,
    Station.exec_pushAll]
  have hrespects := respects_station keeps_push seat n
  generalize hp : (station push seat n).outgoing (.replica r) batch ctx = p
  have hcarries : Carries p r ds := hp ▸ ⟨rfl, hds, hctx⟩
  have hpark : KeepsState Evolves (((station push seat n).parkedFor c
      (n.distributor.writeReplicas r) ctx).forM fun peer =>
        (station push seat n).park peer p.detached) :=
    keepsState_forM (fun peer => hrespects.keepsState_modifyRetry _) _
  exact knows_deliverAll (fun w hw => (hpeers w (hsubset w hw)).evolves (hpark c)) hcarries w' hw'

/-! ### Clusters that agree -/

/-- The nodes of a cluster host an instance, agree on who writes the shard of an operation, and can
all reach each other. They push to all other write replicas, forward to the next one on the ring,
and wait for what they push. What an operation answers and emits there can travel. -/
structure Agrees (id : InstanceId) (op : t.Operation) (count : Nat) (ws : List NodeInfo)
    (c : Cluster) : Prop where
  named : ∀ seat n, c.nodes.get? seat = some n → n.Named
  hosts : ∀ seat n, c.nodes.get? seat = some n → ∃ replicaCount, ∃ shards : List t.State,
    n.hosted.get? id = some ⟨id, t, replicaCount, shards⟩ ∧ shards.length = count
  travels : ∀ seat n, c.nodes.get? seat = some n → ∀ replicaCount, ∀ shards : List t.State, ∀ s,
    n.hosted.get? id = some ⟨id, t, replicaCount, shards⟩ →
      shards[shardOfOperation op count]? = some s →
        LawfulWire.Travels (Operable.apply s n.info.id op).2.1 ∧
          LawfulWire.Travels (Operable.apply s n.info.id op).2.2
  writers : ∀ seat n, c.nodes.get? seat = some n →
    n.distributor.writeReplicas ⟨id, shardOfOperation op count⟩ = ws
  members : ∀ w ∈ ws, ∃ seat n, c.nodes.get? seat = some n ∧ n.info = w
  distinct : ∀ seat seat' n n', c.nodes.get? seat = some n → c.nodes.get? seat' = some n' →
    n.info.id = n'.info.id → seat = seat'
  served : ∀ seat n, c.nodes.get? seat = some n →
    c.services.get? n.info.address = some seat ∧ c.isReachable n.info.address = true
  unmarked : ∀ seat n, c.nodes.get? seat = some n → ∀ peer,
    n.outbox.failures.isUnreachable c.timer peer = false
  propagation : ∀ seat n, c.nodes.get? seat = some n → n.propagation = Selection.allNodes
  rerouting : ∀ seat n, c.nodes.get? seat = some n → n.rerouting = Selection.ringSuccessor
  awaits : ∀ seat n, c.nodes.get? seat = some n → n.config.awaitPropagation = true
  hops : ∀ seat n, c.nodes.get? seat = some n → 0 < n.config.maxRerouteHops

namespace Agrees

variable {id : InstanceId} {op : t.Operation} {count : Nat} {ws : List NodeInfo}
  {ctx : OperationContext}

lemma eq_of_id_eq (hc : Agrees id op count ws c) (hw : w ∈ ws) (hn : c.nodes.get? seat = some n)
    (hid : w.id = n.info.id) : w = n.info := by
  obtain ⟨seat', m, hm, rfl⟩ := hc.members w hw
  obtain rfl := hc.distinct seat' seat m n hm hn hid
  rw [hm, Option.some.injEq] at hn
  rw [hn]

lemma isWriteReplica_iff (hc : Agrees id op count ws c) (hn : c.nodes.get? seat = some n) :
    n.distributor.isWriteReplica ⟨id, shardOfOperation op count⟩ n.info.id = true ↔
      n.info ∈ ws := by
  rw [Distributor.isWriteReplica, hc.writers seat n hn, List.any_eq_true]
  constructor
  · rintro ⟨w, hw, hid⟩
    exact hc.eq_of_id_eq hw hn (by simpa using hid) ▸ hw
  · exact fun hmem => ⟨n.info, hmem, by simp⟩

lemma counted (hc : Agrees id op count ws c) (calls : SortedMap String Nat) :
    Agrees id op count ws { c with calls } :=
  ⟨hc.named, hc.hosts, hc.travels, hc.writers, hc.members, hc.distinct, hc.served, hc.unmarked,
    hc.propagation, hc.rerouting, hc.awaits, hc.hops⟩

lemma exists_shard (hc : Agrees id op count ws c) (hcount : 0 < count)
    (hn : c.nodes.get? seat = some n) : ∃ replicaCount, ∃ shards : List t.State, ∃ s,
      n.hosted.get? id = some ⟨id, t, replicaCount, shards⟩ ∧ shards.length = count ∧
        shards[shardOfOperation op count]? = some s := by
  obtain ⟨replicaCount, shards, hh, hlength⟩ := hc.hosts seat n hn
  have hlt : shardOfOperation op count < shards.length := by
    rw [hlength]
    exact shardOfOperation_lt hcount
  exact ⟨replicaCount, shards, _, hh, hlength, List.getElem?_eq_getElem hlt⟩

lemma deliverable (hc : Agrees id op count ws c) (hcount : 0 < count)
    (hn : c.nodes.get? seat = some n) (hw : w ∈ ws) :
    c.Deliverable n.info.address ⟨id, shardOfOperation op count⟩ t w := by
  obtain ⟨seat', m, hm, rfl⟩ := hc.members w hw
  obtain ⟨hserved, hreachable⟩ := hc.served seat' m hm
  obtain ⟨replicaCount, shards, s, hh, -, hs⟩ := hc.exists_shard hcount hm
  exact ⟨(hc.served seat n hn).2, hreachable, seat', m, hserved, hm, hc.named seat' m hm,
    ⟨id, t, replicaCount, shards⟩, s, hh, Hosted.shard_eq_ok.mpr hs, .intro nofun⟩

/-- A write replica applies the operation, and all write replicas know then what it emits. -/
lemma knows_applyBy (call : OperationCall) (hc : Agrees id op count ws c) (hcount : 0 < count)
    (hn : c.nodes.get? seat = some n) (hwriter : n.info ∈ ws) (hctx : ctx.cancelled = false)
    (hbudget : ctx.budget ≠ 0) (horigin : ∀ w ∈ ws, ctx.origin ≠ some w.id) {replicaCount : Nat}
    {shards : List t.State} {s : t.State}
    (hh : n.hosted.get? id = some ⟨id, t, replicaCount, shards⟩) (hlength : shards.length = count)
    (hs : shards[shardOfOperation op count]? = some s) :
    ∃ c', exec (applyBy call seat ⟨id, t, replicaCount, shards⟩ op ctx) c =
        (.ok (Operable.apply s n.info.id op).2.1, c') ∧
      AppliedAt id op seat c (Operable.apply s n.info.id op).2.1 c' ∧ c.Evolves c' ∧
      ∀ w ∈ ws, c'.Serves w.address ⟨id, shardOfOperation op count⟩
        (Knows (Operable.apply s n.info.id op).2.2) := by
  subst hlength
  have hexec := exec_applyBy_of_isWriteReplica call replicaCount hctx hn hs
    ((hc.isWriteReplica_iff hn).mpr hwriter)
  refine ⟨_, hexec, appliedAt_afterApplying hn hh hs, ?_⟩
  have hsame : (if n.config.awaitPropagation then ctx else ctx.detached) = ctx := by
    rw [hc.awaits seat n hn, if_pos rfl]
  simp only [afterApplying, hsame]
  -- the shard has changed, and its node knows what is emitted
  set n' := n.setHosted ⟨id, t, replicaCount, shards.set (shardOfOperation op shards.length)
    (Operable.apply s n.info.id op).1⟩ with hn'
  set changed : Cluster := { c with nodes := c.nodes.insert seat n' }
  have hget : changed.nodes.get? seat = some n' := SortedMap.get?_insert_self
  have hchanged : c.Evolves changed := .insert hn (.step (.operate hh (apply_hosted hs)) rfl)
  have hhere : changed.Serves n.info.address ⟨id, shardOfOperation op shards.length⟩
      (Knows (Operable.apply s n.info.id op).2.2) := by
    refine ⟨seat, n', (hc.served seat n hn).1, hget, (hc.named seat n hn).setHosted _, ?_⟩
    exact Node.holds_setShard (h := ⟨id, t, replicaCount, shards⟩) (r := ⟨id, _⟩) rfl
      (Hosted.shard_eq_ok.mpr hs) (.intro fun δ hδ => AbsorbingOperations.reflects_of_apply hδ)
  have hpeers (w : NodeInfo) (hw : w ∈ ws) := (hc.deliverable hcount hn hw).evolves hchanged
  split
  · rename_i hnone
    refine ⟨hchanged, fun w hw => ?_⟩
    rw [List.isEmpty_iff.mp hnone]
    exact (hpeers w hw).hosts
  · have hannounce := keeps_announce seat (.replica ⟨id, shardOfOperation op shards.length⟩)
      (Wire.encode (Operable.apply s n.info.id op).2.2) ctx changed
    refine ⟨trans_of Evolves hchanged hannounce, fun w hw => ?_⟩
    by_cases hid : w.id = n.info.id
    · rw [hc.eq_of_id_eq hw hn hid]
      exact hhere.evolves Node.stable_knows hannounce
    · have hwriters : n'.distributor.writeReplicas ⟨id, shardOfOperation op shards.length⟩ = ws :=
        hc.writers seat n hn
      have htravels := (hc.travels seat n hn replicaCount shards s hh hs).2
      obtain ⟨w', hw', hid', hknows⟩ := knows_announce hget (hc.propagation seat n hn)
        (hc.unmarked seat n hn) hctx hbudget htravels.decode_encode
        (fun w hw => hpeers w (hwriters ▸ hw)) (hwriters.symm ▸ hw) hid (horigin w hw)
      rw [hwriters] at hw'
      obtain ⟨seat', m, hm, rfl⟩ := hc.members w hw
      rwa [hc.eq_of_id_eq hw' hm hid'] at hknows

lemma exec_target (hc : Agrees id op count ws c) (hn : c.nodes.get? seat = some n)
    (hreader : n.info ∉ ws) (hne : ws ≠ []) (horigin : ctx.origin = none)
    (hhops : ctx.hops < n.config.maxRerouteHops) :
    ∃ w ∈ ws, exec ((station push seat n).target ⟨id, shardOfOperation op count⟩ ctx) c =
      (.ok w, c) := by
  have hothers : Selection.others n.info ws = ws := by
    refine List.filter_eq_self.mpr fun w hw => decide_eq_true fun hid => hreader ?_
    exact hc.eq_of_id_eq hw hn hid ▸ hw
  obtain ⟨w, hw, hpick⟩ : ∃ w ∈ ws, Selection.ringSuccessor n.info ws = [w] := by
    rcases Selection.ringSuccessor_cases n.info ws with ⟨hnone, -⟩ | hsome
    · exact absurd (hothers.symm.trans hnone) hne
    · rwa [hothers] at hsome
  have hid : w.id ≠ n.info.id := fun hid => hreader (hc.eq_of_id_eq hw hn hid ▸ hw)
  have hunmarked (w' : NodeInfo) : (station push seat n).isUnreachable c w'.id = false :=
    (isUnreachable_station push hn _).trans (hc.unmarked seat n hn _)
  have hfirst : (station push seat n).rerouting n.info
      ((((station push seat n).distributor c).writeReplicas ⟨id, shardOfOperation op count⟩).filter
        fun w' => !(station push seat n).isUnreachable c w'.id) = [w] := by
    simp only [hunmarked, distributor_station push hn, hc.writers seat n hn, Bool.not_false,
      List.filter_true]
    change n.rerouting n.info ws = [w]
    rw [hc.rerouting seat n hn, hpick]
  exact ⟨w, hw, Station.exec_target_of_pick hhops hfirst hid (by simp [horigin])⟩

/-- Who serves at the address of a write replica is that replica. -/
lemma holds_of_serves (hc : Agrees id op count ws c) (hevolves : c.Evolves c')
    (hn : c.nodes.get? seat = some n) (hserves : c'.Serves n.info.address r P) :
    ∃ n', c'.nodes.get? seat = some n' ∧ n'.Holds r P := by
  obtain ⟨seat', n', hserved, hn', -, hholds⟩ := hserves
  rw [hevolves.services, (hc.served seat n hn).1, Option.some.injEq] at hserved
  exact ⟨n', hserved ▸ hn', hholds⟩

lemma knows_forwarded (hop : LawfulWire.Travels op) (hc : Agrees id op count ws c)
    (hcount : 0 < count) (hne : ws ≠ []) (hn : c.nodes.get? seat = some n) (hreader : n.info ∉ ws)
    (hctx : ctx.cancelled = false) (hbudget : ctx.budget ≠ 0) (horigin : ctx.origin = none)
    (hhops : ctx.hops = 0) {replicaCount : Nat} {shards : List t.State}
    (hlength : shards.length = count) :
    ∃ next m replicaCount', ∃ shards' : List t.State, ∃ s c₁ c₂ c',
      exec (applyWith seat ⟨id, t, replicaCount, shards⟩ op ctx) c =
        (.ok (Operable.apply s m.info.id op).2.1, c') ∧
      c.nodes.get? next = some m ∧ m.info ∈ ws ∧
      m.hosted.get? id = some ⟨id, t, replicaCount', shards'⟩ ∧
      shards'[shardOfOperation op count]? = some s ∧ c₁.lasting = c.lasting ∧
      AppliedAt id op next c₁ (Operable.apply s m.info.id op).2.1 c₂ ∧ c'.lasting = c₂.lasting ∧
      c.Evolves c' ∧ ∀ w ∈ ws, c'.Serves w.address ⟨id, shardOfOperation op count⟩
        (Knows (Operable.apply s m.info.id op).2.2) := by
  obtain ⟨w, hw, htarget⟩ := hc.exec_target hn hreader hne horigin
    (hhops ▸ hc.hops seat n hn : ctx.hops < n.config.maxRerouteHops)
  obtain ⟨next, m, hm, rfl⟩ := hc.members w hw
  obtain ⟨replicaCount', shards', s, hh', hlength', hs⟩ := hc.exists_shard hcount hm
  obtain ⟨hserved, hreachable⟩ := hc.served next m hm
  have hctx' : (ctx.rerouted n.info.id).cancelled = false := hctx
  set c₁ : Cluster :=
    { c with calls := c.calls.alter m.info.address fun k => k.getD 0 + 1 }
  have hcounted : c.Evolves c₁ := ⟨rfl, rfl, fun _ n hn => ⟨n, hn, refl_of Node.Becomes n⟩⟩
  have horigin' : ∀ w ∈ ws, (ctx.rerouted n.info.id).origin ≠ some w.id := by
    intro w hw heq
    exact hreader (hc.eq_of_id_eq hw hn (Option.some.inj heq).symm ▸ hw)
  have hc₁ : Agrees id op count ws c₁ := hc.counted _
  obtain ⟨c₂, hexec, happlied, hevolves, hknows⟩ := hc₁.knows_applyBy (callWithin (c.hopBound - 1))
    hcount hm hw hctx' hbudget horigin' hh' hlength' hs
  have htravels := (hc.travels next m hm replicaCount' shards' s hh' hs).1
  have hreported := (respects_station keeps_push seat n).keepsState_modifyFailures
    (fun _ f => f.reportSuccess m.info) c₂
  refine ⟨next, m, replicaCount', shards', s, c₁, c₂, _, ?_, hm, hw, hh', hs, rfl, happlied,
    lasting_reportSuccess push seat n m.info,
    trans_of Evolves hcounted (trans_of Evolves hevolves hreported),
    fun w hw => (hknows w hw).evolves Node.stable_knows hreported⟩
  subst hlength
  have hwrites : n.distributor.isWriteReplica ⟨id, shardOfOperation op shards.length⟩ n.info.id =
      false := by
    rw [← Bool.not_eq_true, hc.isWriteReplica_iff hn]
    exact hreader
  rw [exec_applyWith_of_forwarded hop hctx hn hwrites htarget (hc.served seat n hn).2 hreachable
    hserved hm hh' hlength' hexec, htravels.decode_encode]

end Agrees

/-- **A write from any node reaches every write replica.** Let the nodes of a cluster agree on who
writes the shard of an operation, with one write replica at least, and reach each other, whatever
states their shards are in and whatever is parked at them. An operation that enters at any node with
some fan-out budget is answered after one forward at most. Exactly one node has applied it, a write
replica, and all write replicas reflect what it has emitted. The operation has to travel, and so
have its output and its deltas. -/
theorem write_reaches_all_writers {id : InstanceId} {op : t.Operation} {count : Nat}
    {ws : List NodeInfo} {replicaCount : Nat} {shards : List t.State} (hop : LawfulWire.Travels op)
    (hcount : 0 < count) (hne : ws ≠ []) (hc : Agrees id op count ws c)
    (hn : c.nodes.get? seat = some n) (hbudget : 0 < n.config.propagationBudget)
    (hh : n.hosted.get? id = some ⟨id, t, replicaCount, shards⟩) (traceId : String) :
    ∃ route applier output c',
      exec (execute seat ⟨id, t, replicaCount, shards⟩ op traceId) c = (.ok output, c') ∧
      Course id op c seat route [applier] (.ok output) c' ∧ route.length ≤ 1 ∧
      ∃ m replicaCount', ∃ shards' : List t.State, ∃ s,
        c.nodes.get? applier = some m ∧ m.info ∈ ws ∧
        m.hosted.get? id = some ⟨id, t, replicaCount', shards'⟩ ∧
        shards'[shardOfOperation op count]? = some s ∧
        output = (Operable.apply s m.info.id op).2.1 ∧
        ∀ seat' w, c.nodes.get? seat' = some w → w.info ∈ ws →
          ∃ w', c'.nodes.get? seat' = some w' ∧
            w'.Holds ⟨id, shardOfOperation op count⟩
              (Knows (Operable.apply s m.info.id op).2.2) := by
  have hlength : shards.length = count := by
    obtain ⟨_, _, hh', hlength⟩ := hc.hosts seat n hn
    rw [hh] at hh'
    cases hh'
    exact hlength
  have hexecute : exec (execute seat ⟨id, t, replicaCount, shards⟩ op traceId) c =
      exec (applyWith seat ⟨id, t, replicaCount, shards⟩ op (n.config.operation traceId)) c :=
    exec_bind_ok (exec_act_get hn)
  have hbudget' : (n.config.operation traceId).budget ≠ 0 := Nat.pos_iff_ne_zero.mp hbudget
  rw [hexecute]
  by_cases hwriter : n.info ∈ ws
  · obtain ⟨s, hs⟩ : ∃ s, shards[shardOfOperation op count]? = some s := by
      subst hlength
      exact ⟨_, List.getElem?_eq_getElem (shardOfOperation_lt hcount)⟩
    obtain ⟨c', hexec, happlied, hevolves, hknows⟩ := hc.knows_applyBy Cluster.call hcount hn
      hwriter rfl hbudget' nofun hh hlength hs
    exact ⟨[], seat, _, c', hexec, .applied happlied, Nat.zero_le _, n, replicaCount, shards, s,
      hn, hwriter, hh, hs, rfl, fun seat' w hw hwritten =>
        hc.holds_of_serves hevolves hw (hknows _ hwritten)⟩
  · obtain ⟨next, m, replicaCount', shards', s, c₁, c₂, c', hexec, hm, hmember, hh', hs, hbefore,
      happlied, hafter, hevolves, hknows⟩ := hc.knows_forwarded hop
        hcount hne hn hwriter rfl hbudget' rfl rfl hlength
    exact ⟨[next], next, _, c', hexec, .forwarded hbefore (.applied happlied) hafter, Nat.le_refl _,
      m, replicaCount', shards', s, hm, hmember, hh', hs, rfl, fun seat' w hw hwritten =>
        hc.holds_of_serves hevolves hw (hknows _ hwritten)⟩

/-! ### Three nodes of which two write -/

/-- Two nodes write the set, and the first of them owes the other an old push. -/
def setTrio : Cluster :=
  let a : NodeInfo := ⟨"a", "mem://a"⟩
  let b : NodeInfo := ⟨"b", "mem://b"⟩
  let c : NodeInfo := ⟨"c", "mem://c"⟩
  let parked : Push := ⟨.replica ⟨"t", 0⟩, Wire.encode ([] : List (OrSetDelta String)), .fresh "" 1⟩
  let owing : Node := { setHost b [b, c] with
    outbox := ⟨.ofRecheck 5000, ((RetryBuffer.ofCapacity 32).push "c" parked).1⟩ }
  trio (setHost a [b, c]) owing (setHost c [b, c])

lemma node_setTrio (hn : setTrio.nodes.get? seat = some n) :
    ∃ info, (seat, info) ∈ [(0, ⟨"a", "mem://a"⟩), (1, ⟨"b", "mem://b"⟩), (2, ⟨"c", "mem://c"⟩)] ∧
      ∃ outbox, outbox.failures = .ofRecheck 5000 ∧
        n = { setHost info [⟨"b", "mem://b"⟩, ⟨"c", "mem://c"⟩] with outbox } := by
  rcases node_trio hn with ⟨rfl, rfl⟩ | ⟨rfl, rfl⟩ | ⟨rfl, rfl⟩ <;> exact ⟨_, by simp, _, rfl, rfl⟩

lemma agrees_setTrio : Agrees (t := .orSet .string) "t" (OrSetOperation.add "x") 1
    [⟨"b", "mem://b"⟩, ⟨"c", "mem://c"⟩] setTrio where
  named seat n hn := by
    obtain ⟨info, -, outbox, -, rfl⟩ := node_setTrio hn
    exact (named_setHost info [⟨"b", "mem://b"⟩, ⟨"c", "mem://c"⟩]).of_hosted rfl
  hosts seat n hn := by
    obtain ⟨info, -, outbox, -, rfl⟩ := node_setTrio hn
    exact ⟨1, [OrSet.empty], rfl, rfl⟩
  travels seat n hn replicaCount shards s hh hs := by
    obtain ⟨info, -, outbox, -, rfl⟩ := node_setTrio hn
    cases hh
    obtain rfl := List.mem_singleton.mp (List.mem_of_getElem? hs)
    refine ⟨.of_depth trivial (by decide), .of_depth (fun δ hδ => ?_) (by decide)⟩
    obtain rfl := List.mem_singleton.mp hδ
    exact ⟨(by decide : 1 < word64), trivial⟩
  writers seat n hn := by
    obtain ⟨info, -, outbox, -, rfl⟩ := node_setTrio hn
    exact writeReplicas_setHost info _ "x"
  members w hw := by
    rcases List.mem_pair.mp hw with rfl | rfl
    · exact ⟨1, _, rfl, rfl⟩
    · exact ⟨2, _, rfl, rfl⟩
  distinct seat seat' n n' hn hn' hid := by
    obtain ⟨info, hinfo, outbox, -, rfl⟩ := node_setTrio hn
    obtain ⟨info', hinfo', outbox', -, rfl⟩ := node_setTrio hn'
    have hid : info.id = info'.id := hid
    have hkey : ∀ p ∈ [(0, ⟨"a", "mem://a"⟩), (1, ⟨"b", "mem://b"⟩), (2, ⟨"c", "mem://c"⟩)],
        ∀ q ∈ [(0, ⟨"a", "mem://a"⟩), (1, ⟨"b", "mem://b"⟩), (2, ⟨"c", "mem://c"⟩)],
          (p : Seat × NodeInfo).2.id = (q : Seat × NodeInfo).2.id → p.1 = q.1 := by
      decide +kernel
    exact hkey _ hinfo _ hinfo' hid
  served seat n hn := by
    obtain ⟨info, hinfo, outbox, -, rfl⟩ := node_setTrio hn
    change setTrio.services.get? info.address = some seat ∧
      setTrio.isReachable info.address = true
    simp only [List.mem_cons, Prod.mk.injEq, List.not_mem_nil, or_false] at hinfo
    rcases hinfo with ⟨rfl, rfl⟩ | ⟨rfl, rfl⟩ | ⟨rfl, rfl⟩ <;> decide +kernel
  unmarked seat n hn peer := by
    obtain ⟨info, -, outbox, hfree, rfl⟩ := node_setTrio hn
    change outbox.failures.isUnreachable 0 peer = false
    rw [hfree]
    rfl
  propagation seat n hn := by
    obtain ⟨info, -, outbox, -, rfl⟩ := node_setTrio hn
    rfl
  rerouting seat n hn := by
    obtain ⟨info, -, outbox, -, rfl⟩ := node_setTrio hn
    rfl
  awaits seat n hn := by
    obtain ⟨info, -, outbox, -, rfl⟩ := node_setTrio hn
    rfl
  hops seat n hn := by
    obtain ⟨info, -, outbox, -, rfl⟩ := node_setTrio hn
    exact (by decide : 0 < 3)

/-- An addition that enters at the node that does not write reaches both that do. -/
theorem addition_reaches_both_writers :
    ∃ route applier output c' actor,
      exec (execute 0 ⟨"t", .orSet .string, 1, [OrSet.empty]⟩ (OrSetOperation.add "x") "")
        setTrio = (.ok output, c') ∧
      Course (t := .orSet .string) "t" (OrSetOperation.add "x") setTrio 0 route [applier]
        (.ok output) c' ∧ route.length ≤ 1 ∧
      ∀ seat ∈ [1, 2], ∃ n, c'.nodes.get? seat = some n ∧ n.Holds ⟨"t", 0⟩
        (Knows (t := .orSet .string) [OrSetDelta.add ⟨actor, 1⟩ "x"]) := by
  obtain ⟨route, applier, output, c', hexec, hcourse, hlength, m, _, shards, s, hm, -, hh, hs, -,
    hknows⟩ := write_reaches_all_writers (.of_depth trivial (by decide)) Nat.one_pos
      (List.cons_ne_nil _ _) agrees_setTrio (rfl : setTrio.nodes.get? 0 = some _)
      (by decide : 0 < 2) rfl ""
  obtain ⟨info, -, outbox, -, rfl⟩ := node_setTrio hm
  have hshard : shardOfOperation (t := .orSet .string) (OrSetOperation.add "x") 1 = 0 :=
    shardOfOperation_one _
  rw [hshard] at hs hknows
  cases hh
  obtain rfl := (Option.some.inj hs).symm
  refine ⟨route, applier, output, c', info.id, hexec, hcourse, hlength, fun seat hseat => ?_⟩
  rcases List.mem_pair.mp hseat with rfl | rfl
  · exact hknows 1 _ rfl List.mem_cons_self
  · exact hknows 2 _ rfl (List.mem_cons_of_mem _ List.mem_cons_self)

/-! ### A batch that is too deep -/

def pairOf (s : t.State) : Cluster :=
  let a : NodeInfo := ⟨"a", "mem://a"⟩
  let b : NodeInfo := ⟨"b", "mem://b"⟩
  duo (hostOf a [a, b] s) (hostOf b [a, b] s)

lemma lasting_noting (p : Push) (answer : Except ClusterError MergeResult) :
    (exec ((station push seat n).noting w p answer) c).2.lasting = c.lasting := by
  cases answer with
  | ok result => exact lasting_setOutbox push seat n _
  | error e =>
    rw [Station.noting]
    split
    · exact (lasting_setOutbox push seat n _).trans (lasting_setOutbox push seat n _)
    · rfl

/-- A push that the peer cannot read changes no shard. -/
lemma shards_deliver_of_undecodable {m : Node} {seat' : Seat} {h : Hosted} {s : h.type.State}
    {e : ClusterError} (hctx : p.ctx.cancelled = false) (hn : c.nodes.get? seat = some n)
    (hparked : n.outbox.retry.queue w.id = []) (hcaller : c.isReachable n.info.address = true)
    (hcallee : c.isReachable w.address = true) (hserved : c.services.get? w.address = some seat')
    (hm : c.nodes.get? seat' = some m) (hh : m.hosted.get? r.instanceId = some h)
    (hs : h.shard r.shard = .ok s) (hsubject : p.subject = .replica r)
    (hdeltas : (Wire.decode p.deltas : Except ClusterError (List h.type.Delta)) = .error e) :
    (exec ((station push seat n).deliver w p) c).2.shards = c.shards := by
  have hqueue : ((station push seat n).outbox c).retry.queue w.id = [] := by
    simp only [station, SortedMap.getD, hn, Option.getD_some]
    exact hparked
  set c₀ := (((station push seat n).flush w).run c).2 with hc₀
  rw [Station.run_flush_of_queue_eq_nil _ hqueue] at hc₀
  have hlasting : c₀.lasting = c.lasting := hc₀ ▸ lasting_setOutbox push seat n _
  obtain ⟨m₀, hm₀, hsame⟩ := exists_node_of_lasting_eq hlasting hm
  have hh₀ : m₀.hosted.get? r.instanceId = some h := by
    have hhosted : m₀.lasting.hosted = m.lasting.hosted := congrArg Node.hosted hsame
    exact (congrArg (SortedMap.get? · _) hhosted).trans hh
  have hconnect := exec_connect_of_reachable (c := c₀) hctx (by rw [hc₀]; exact hcaller)
    (by rw [hc₀]; exact hcallee) (by rw [hc₀]; exact hserved)
  set c₁ := { c₀ with calls := c₀.calls.alter w.address fun n => n.getD 0 + 1 }
  have hmerge : exec (act seat' (Node.merge p.subject p.deltas)) c₁ = (.error e, c₁) := by
    rw [hsubject]
    exact exec_act_of_get? hm₀ (Node.exec_merge_of_undecodable hh₀ hs hdeltas)
  have hsend : exec ((station push seat n).send w p) c₀ = (.error e, c₁) :=
    (exec_push_of_connect hconnect).trans (exec_bind_error hmerge)
  rw [Station.exec_deliver _ hctx]
  change (exec ((station push seat n).noting w p (exec ((station push seat n).send w p) c₀).1)
    (exec ((station push seat n).send w p) c₀).2).2.shards = _
  rw [hsend]
  exact shards_eq_of_lasting_eq ((lasting_noting p (.error e)).trans hlasting)

lemma shards_announce_of_undecodable (ctx : OperationContext) {m : Node} {seat' : Seat}
    {h : Hosted} {s : h.type.State} {e : ClusterError} (hctx : ctx.cancelled = false)
    (hbudget : ctx.budget ≠ 0) (hn : c.nodes.get? seat = some n)
    (hdown : (station push seat n).parkedFor c (n.distributor.writeReplicas r) ctx = [])
    (htargets : (station push seat n).targets c (n.distributor.writeReplicas r) ctx = [w])
    (hparked : n.outbox.retry.queue w.id = []) (hcaller : c.isReachable n.info.address = true)
    (hcallee : c.isReachable w.address = true) (hserved : c.services.get? w.address = some seat')
    (hm : c.nodes.get? seat' = some m) (hh : m.hosted.get? r.instanceId = some h)
    (hs : h.shard r.shard = .ok s)
    (hdeltas : (Wire.decode batch : Except ClusterError (List h.type.Delta)) = .error e) :
    (exec (announce seat (.replica r) batch ctx) c).2.shards = c.shards := by
  rw [announce, exec_tryPropagate_of_get? push hn hctx hbudget, peersFor_station push hn,
    Station.exec_pushAll, hdown, htargets, Station.run_deliverAll_cons]
  exact shards_deliver_of_undecodable hctx hn hparked hcaller hcallee hserved hm hh hs rfl hdeltas

/-- The second of two nodes cannot read what the first one announces. -/
lemma shards_announce_duo_of_undecodable {s s' : t.State} {batch : Payload} {e : ClusterError}
    (hdeltas : (Wire.decode batch : Except ClusterError (List t.Delta)) = .error e) :
    let a : NodeInfo := ⟨"a", "mem://a"⟩
    let b : NodeInfo := ⟨"b", "mem://b"⟩
    let c := duo (hostOf a [a, b] s') (hostOf b [a, b] s)
    (exec (announce 0 (.replica ⟨"t", 0⟩) batch ((hostOf a [a, b] s').config.operation ""))
      c).2.shards = c.shards := by
  intro a b c
  let n := hostOf a [a, b] s'
  let ctx := n.config.operation ""
  have hn : c.nodes.get? 0 = some n := rfl
  have hwriters : n.distributor.writeReplicas ⟨"t", 0⟩ = [a, b] := rfl
  have hunmarked (id : NodeId) : (station push 0 n).isUnreachable c id = false :=
    isUnreachable_station push hn _
  have heligible : (station push 0 n).eligible [a, b] ctx = [b] := by
    have hfilter : ([a, b].filter fun w => w.id != a.id && (none : Option NodeId) != some w.id) =
        [b] := by decide
    exact hfilter
  have hpick : ((Selection.allNodes a [b]).filter fun w => (none : Option NodeId) != some w.id) =
      [b] := by decide +kernel
  have hdown : (station push 0 n).parkedFor c [a, b] ctx = [] := by
    rw [Station.parkedFor, heligible]
    simp only [hunmarked]
    rfl
  have htargets : (station push 0 n).targets c [a, b] ctx = [b] := by
    rw [Station.targets, heligible]
    simp only [hunmarked]
    exact hpick
  have hbudget : ctx.budget ≠ 0 := (by decide : (2 : Nat) ≠ 0)
  have hserved : c.services.get? b.address = some 1 := SortedMap.get?_insert_self
  have hm : c.nodes.get? 1 = some (hostOf b [a, b] s) := rfl
  have hh : (hostOf b [a, b] s).hosted.get? "t" = some ⟨"t", t, 1, [s]⟩ := rfl
  have hs : Hosted.shard ⟨"t", t, 1, [s]⟩ 0 = .ok s := rfl
  exact shards_announce_of_undecodable ctx rfl hbudget hn (by rwa [hwriters]) (by rwa [hwriters])
    rfl rfl rfl hserved hm hh hs hdeltas

/-- An operation whose deltas cannot be read is applied at the first node, and the second does not
change. -/
lemma exec_execute_pairOf {op : t.Operation} {s : t.State} {e : ClusterError}
    (hdeltas : (Wire.decode (Wire.encode (Operable.apply s "a" op).2.2) :
      Except ClusterError (List t.Delta)) = .error e) :
    ∃ c', exec (execute 0 ⟨"t", t, 1, [s]⟩ op "") (pairOf s) =
        (.ok (Operable.apply s "a" op).2.1, c') ∧ c'.shards 1 = (pairOf s).shards 1 := by
  let a : NodeInfo := ⟨"a", "mem://a"⟩
  let b : NodeInfo := ⟨"b", "mem://b"⟩
  let n := hostOf a [a, b] s
  have hn : (pairOf s).nodes.get? 0 = some n := rfl
  have hwrites : n.distributor.isWriteReplica ⟨"t", shardOfOperation op 1⟩ a.id = true := by
    rw [isWriteReplica_hostOf]
    decide
  refine ⟨_, (exec_bind_ok (exec_act_get hn)).trans (exec_applyBy_of_isWriteReplica Cluster.call 1
    rfl hn (getElem?_shardOfOperation_one op s) hwrites), ?_⟩
  have hawait : n.config.awaitPropagation = true := rfl
  rw [afterApplying]
  simp only [List.length_singleton, shardOfOperation_one, List.set_cons_zero, hawait, if_true]
  rw [setHosted_hostOf]
  split
  · rfl
  · exact congrFun (shards_announce_duo_of_undecodable (s := s) hdeltas) 1

lemma not_holds_knows_addition {k : Nat} {n : Node}
    (hh : n.hosted.get? "t" = some ⟨"t", (CrdtType.orSet .string).inMaps k, 1, [initial]⟩) :
    ¬ n.Holds ⟨"t", 0⟩ (Knows (Operable.apply (initial : ((CrdtType.orSet .string).inMaps k).State)
      "a" (CrdtType.within CrdtType.addition k)).2.2) := by
  rintro ⟨h, s, hh', hs, hknows⟩
  obtain rfl := Option.some.inj (hh.symm.trans hh')
  obtain ⟨rfl⟩ := Hosted.shard_eq_ok.mp hs
  cases hknows with
  | intro hall =>
    obtain ⟨δ, hδ, hunseen⟩ := CrdtType.exists_not_reflects_initial "a" k
    exact Bool.false_ne_true (hunseen.symm.trans (hall δ hδ))

/-- At the first of two write replicas an item is added to a set in 125 maps. The operation
succeeds, and the other, which is up and in reach, does not reflect it. -/
theorem deep_addition_stays_unheard :
    ∃ output c', exec (execute 0 ⟨"t", (CrdtType.orSet .string).inMaps 125, 1, [initial]⟩
        (CrdtType.within CrdtType.addition 125) "")
          (pairOf (initial : ((CrdtType.orSet .string).inMaps 125).State)) = (.ok output, c') ∧
      ∀ n, c'.nodes.get? 1 = some n → ¬ n.Holds ⟨"t", 0⟩ (Knows (Operable.apply
        (initial : ((CrdtType.orSet .string).inMaps 125).State) "a"
          (CrdtType.within CrdtType.addition 125)).2.2) := by
  obtain ⟨c', hexec, hshards⟩ := exec_execute_pairOf (CrdtType.decode_deltas_addedWithin "a" le_rfl)
  refine ⟨_, c', hexec, fun n hn => not_holds_knows_addition ?_⟩
  rw [shards, hn] at hshards
  rw [Option.some.inj hshards]
  rfl

end Cluster

end DeltaRing
