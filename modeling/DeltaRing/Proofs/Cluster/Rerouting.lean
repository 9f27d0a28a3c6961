import DeltaRing.Cluster.Operation
import DeltaRing.Proofs.Cluster.Exec
import DeltaRing.Proofs.Node.Hosting
import DeltaRing.Proofs.Wire.Nesting

/-!
An operation is applied once or not at all.

Nodes may disagree on who writes a shard, and none of them can be relied on to be reachable. An
operation that enters at one of them is forwarded from node to node, and every node that it reaches
either applies it, or refuses it, or forwards it with one hop more. So a course of an operation is a
chain of nodes that ends in one application or in a refusal, and the hop limits bound its length.
-/

namespace DeltaRing

open DeltaRing.Action

namespace Station

variable {σ : Type} (st : Station σ) {s : σ}

/-- Choosing a target changes nothing. It fails with a routing error or leaves a hop to take. -/
lemma exec_target (replica : ReplicaId) (ctx : OperationContext) :
    (exec (st.target replica ctx) s).2 = s ∧
      (∀ e, (exec (st.target replica ctx) s).1 = .error e → ∃ f, e = .routing replica f) ∧
      (∀ peer, (exec (st.target replica ctx) s).1 = .ok peer → ctx.hops < st.maxHops) := by
  have hrefuse : ∀ f, (exec (throw (.routing replica f) : Action σ NodeInfo) s).2 = s ∧
      (∀ e, (exec (throw (.routing replica f) : Action σ NodeInfo) s).1 = .error e →
        ∃ f, e = .routing replica f) ∧
      (∀ peer, (exec (throw (.routing replica f) : Action σ NodeInfo) s).1 = .ok peer →
        ctx.hops < st.maxHops) := by
    intro f
    refine ⟨rfl, ?_, nofun⟩
    rintro _ ⟨⟩
    exact ⟨f, rfl⟩
  rw [target]
  split
  · exact hrefuse _
  · rename_i hhops
    rw [exec_bind, exec_get]
    dsimp only
    split
    · exact hrefuse _
    · split
      · exact hrefuse _
      · split
        · exact hrefuse _
        · exact ⟨rfl, nofun, fun _ _ => by omega⟩

variable {st} in
/-- The first pick is the target, if it is neither the node itself nor the origin. -/
lemma exec_target_of_pick {replica : ReplicaId} {ctx : OperationContext} {peer : NodeInfo}
    {rest : List NodeInfo} (hhops : ctx.hops < st.maxHops)
    (hpick : st.rerouting st.here (((st.distributor s).writeReplicas replica).filter
      fun n => !st.isUnreachable s n.id) = peer :: rest)
    (hself : peer.id ≠ st.here.id) (horigin : ctx.origin ≠ some peer.id) :
    exec (st.target replica ctx) s = (.ok peer, s) := by
  rw [target, if_neg (Nat.not_le.mpr hhops), exec_bind, exec_get]
  simp only [hpick, if_neg hself, if_neg horigin, exec_pure]

variable {st} in
lemma exec_reroute_of_answer
    {call : NodeInfo → ReplicaId → Payload → OperationContext → Action σ Payload}
    {replica : ReplicaId} {operation output : Payload} {ctx : OperationContext} {peer : NodeInfo}
    {s' : σ} (hctx : ctx.cancelled = false)
    (htarget : exec (st.target replica ctx) s = (.ok peer, s))
    (hconnect : exec (st.connect peer) s = (.ok (), s))
    (hcall : exec (call peer replica operation (ctx.rerouted st.here.id)) s = (.ok output, s')) :
    exec (st.reroute call replica operation ctx) s =
      (.ok output, ((st.reportSuccess peer).run s').2) := by
  simp only [reroute, exec_bind, exec_liftExcept, ensureActive_of_not_cancelled hctx, htarget,
    hconnect, exec_attempt, hcall]
  rfl

end Station

namespace Cluster

variable {t : CrdtType}

def shardOfOperation (op : t.Operation) (count : Nat) : Nat :=
  shardFor (Operable.operationKey (S := t.State) op) count

/-- A node hosts the instance as a type with a number of shards, lets an operation take no more than
some number of hops, and what it answers can travel. -/
structure Offers (id : InstanceId) (op : t.Operation) (count bound : Nat) (n : Node) : Prop where
  hosts : ∃ replicaCount, ∃ shards : List t.State,
    n.hosted.get? id = some ⟨id, t, replicaCount, shards⟩ ∧ shards.length = count
  hops : n.config.maxRerouteHops ≤ bound
  answers : ∀ replicaCount, ∀ shards : List t.State, ∀ s,
    n.hosted.get? id = some ⟨id, t, replicaCount, shards⟩ →
      shards[shardOfOperation op shards.length]? = some s →
        LawfulWire.Travels (Operable.apply s n.info.id op).2.1

def AllOffer (id : InstanceId) (op : t.Operation) (count bound : Nat) (c : Cluster) : Prop :=
  ∀ seat n, c.nodes.get? seat = some n → Offers id op count bound n

def AppliedAt (id : InstanceId) (op : t.Operation) (seat : Seat) (c : Cluster) (output : t.Output)
    (c' : Cluster) : Prop :=
  ∃ n replicaCount, ∃ shards : List t.State, ∃ s,
    let shard := shardOfOperation op shards.length
    let applied := Operable.apply s n.info.id op
    let changed := { c with
      nodes := c.nodes.insert seat (n.setHosted ⟨id, t, replicaCount, shards.set shard applied.1⟩) }
    c.nodes.get? seat = some n ∧ n.hosted.get? id = some ⟨id, t, replicaCount, shards⟩ ∧
      shards[shard]? = some s ∧ output = applied.2.1 ∧
      (applied.2.2 = [] ∧ c' = changed ∨ ∃ ctx,
        c' = (exec (announce seat (.replica ⟨id, shard⟩) (Wire.encode applied.2.2) ctx) changed).2)

/-- No node was found to forward to, or the one that was found could not be reached, or could not
read the operation. -/
def IsRefusal (e : ClusterError) : Prop :=
  (∃ r f, e = .routing r f) ∨ e.isUnreachable = true ∨ ∃ complaint, e = .serialization complaint

/-- How an operation fares that has reached a seat: the seats that it is forwarded to, the seats
that apply it, and what is answered. -/
inductive Course (id : InstanceId) (op : t.Operation) :
    Cluster → Seat → List Seat → List Seat → Except ClusterError t.Output → Cluster → Prop
  | refused {c c' : Cluster} {seat : Seat} {e : ClusterError} : c'.lasting = c.lasting →
    IsRefusal e → Course id op c seat [] [] (.error e) c'
  | applied {c c' : Cluster} {seat : Seat} {output : t.Output} :
    AppliedAt id op seat c output c' → Course id op c seat [] [seat] (.ok output) c'
  | forwarded {c c₁ c₂ c' : Cluster} {seat next : Seat} {route appliers : List Seat}
    {answer : Except ClusterError t.Output} : c₁.lasting = c.lasting →
    Course id op c₁ next route appliers answer c₂ → c'.lasting = c₂.lasting →
    Course id op c seat (next :: route) appliers answer c'

variable {id : InstanceId} {op : t.Operation} {count bound : Nat} {c c' : Cluster} {seat : Seat}
  {n : Node} {ctx : OperationContext}

namespace Course

variable {route appliers : List Seat} {answer : Except ClusterError t.Output}

/-- What is answered tells whether the operation was applied: once and by one node, or by none. -/
lemma appliers_of_answer (h : Course id op c seat route appliers answer c') :
    (∀ output, answer = .ok output → ∃ applier, appliers = [applier]) ∧
      (∀ e, answer = .error e → appliers = []) := by
  induction h with
  | refused _ _ => exact ⟨nofun, fun _ _ => rfl⟩
  | applied _ => exact ⟨fun _ _ => ⟨_, rfl⟩, nofun⟩
  | forwarded _ _ _ ih => exact ih

/-- A course that was refused leaves every shard as it was. -/
lemma lasting_of_error (h : Course id op c seat route appliers answer c') {e : ClusterError}
    (he : answer = .error e) : c'.lasting = c.lasting ∧ IsRefusal e := by
  induction h with
  | refused hlasting hrefusal =>
    cases he
    exact ⟨hlasting, hrefusal⟩
  | applied _ => cases he
  | forwarded hbefore _ hafter ih =>
    exact ⟨(hafter.trans (ih he).1).trans hbefore, (ih he).2⟩

lemma applied_of_ok (h : Course id op c seat route appliers answer c') {output : t.Output}
    (ho : answer = .ok output) : ∃ applier c₁ c₂, appliers = [applier] ∧
      applier = (seat :: route).getLast (by simp) ∧ c₁.lasting = c.lasting ∧
      AppliedAt id op applier c₁ output c₂ ∧ c'.lasting = c₂.lasting := by
  induction h with
  | refused _ _ => cases ho
  | applied happlied =>
    cases ho
    exact ⟨_, _, _, rfl, rfl, rfl, happlied, rfl⟩
  | forwarded hbefore _ hafter ih =>
    obtain ⟨applier, c₁, c₂, happliers, hlast, hc₁, happlied, hc₂⟩ := ih ho
    exact ⟨applier, c₁, c₂, happliers, by simpa using hlast, hc₁.trans hbefore, happlied,
      hafter.trans hc₂⟩

end Course

/-! ### One node -/

lemma AllOffer.of_lasting_eq (h : AllOffer id op count bound c) (hc : c'.lasting = c.lasting) :
    AllOffer id op count bound c' := by
  intro seat n hn
  obtain ⟨m, hm, hlasting⟩ := exists_node_of_lasting_eq hc.symm hn
  have hoffers : Offers id op count bound m.lasting :=
    ⟨(h seat m hm).hosts, (h seat m hm).hops, (h seat m hm).answers⟩
  rw [hlasting] at hoffers
  exact ⟨hoffers.hosts, hoffers.hops, hoffers.answers⟩

variable {replicaCount : Nat} {shards : List t.State} {call : OperationCall}

lemma shardOfOperation_lt (h : 0 < count) : shardOfOperation op count < count := by
  have := shardFor_lt (Operable.operationKey (S := t.State) op) count
  simp only [shardsOf] at this
  rw [shardOfOperation]
  omega

/-- A single shard has every key. -/
lemma shardOfOperation_one (op : t.Operation) : shardOfOperation op 1 = 0 :=
  Nat.lt_one_iff.mp (shardOfOperation_lt Nat.one_pos)

lemma getElem?_shardOfOperation_one (op : t.Operation) (s : t.State) :
    [s][shardOfOperation op 1]? = some s := by
  rw [shardOfOperation_one]
  rfl

lemma apply_hosted {actor : Actor} {s : t.State}
    (hs : shards[shardOfOperation op shards.length]? = some s) :
    (⟨id, t, replicaCount, shards⟩ : Hosted).apply actor op =
      .ok (⟨id, t, replicaCount,
          shards.set (shardOfOperation op shards.length) (Operable.apply s actor op).1⟩,
        (Operable.apply s actor op).2.1, (Operable.apply s actor op).2.2) :=
  Hosted.apply_of_shard (h := ⟨id, t, replicaCount, shards⟩) (Hosted.shard_eq_ok.mpr hs)

variable (op c seat n id replicaCount shards ctx) in
/-- What is there after a node has applied an operation to a shard in some state: the deltas are
announced if there are any. -/
def afterApplying (s : t.State) : Cluster :=
  let shard := shardOfOperation op shards.length
  let applied := Operable.apply s n.info.id op
  let changed := { c with
    nodes := c.nodes.insert seat (n.setHosted ⟨id, t, replicaCount, shards.set shard applied.1⟩) }
  if applied.2.2.isEmpty then changed
  else
    (exec (announce seat (.replica ⟨id, shard⟩) (Wire.encode applied.2.2)
      (if n.config.awaitPropagation then ctx else ctx.detached)) changed).2

/-- A node that writes the shard applies the operation. -/
lemma exec_applyBy_of_isWriteReplica (call : OperationCall) (replicaCount : Nat) {s : t.State}
    (hctx : ctx.cancelled = false) (hn : c.nodes.get? seat = some n)
    (hs : shards[shardOfOperation op shards.length]? = some s)
    (hwrites :
      n.distributor.isWriteReplica ⟨id, shardOfOperation op shards.length⟩ n.info.id = true) :
    exec (applyBy call seat ⟨id, t, replicaCount, shards⟩ op ctx) c =
      (.ok (Operable.apply s n.info.id op).2.1,
        afterApplying id op c seat n ctx replicaCount shards s) := by
  have hreplica : (⟨id, t, replicaCount, shards⟩ : Hosted).replica
      ((⟨id, t, replicaCount, shards⟩ : Hosted).shardOfOperation op) =
        ⟨id, shardOfOperation op shards.length⟩ := rfl
  have hget : exec (act seat get) c = (.ok n, c) := exec_act_of_get? hn rfl
  have hset := exec_act_modify hn fun m => m.setHosted ⟨id, t, replicaCount,
    shards.set (shardOfOperation op shards.length) (Operable.apply s n.info.id op).1⟩
  simp only [applyBy, exec_bind, exec_liftExcept, ensureActive_of_not_cancelled hctx, hget,
    hreplica, hwrites, if_pos, apply_hosted hs, hset, afterApplying]
  cases hdeltas : (Operable.apply s n.info.id op).2.2.isEmpty with
  | true => rfl
  | false =>
    simp only [Bool.not_false, if_true, Bool.false_eq_true, if_false]
    exact exec_bind_ok (Prod.ext (exec_announce ..) rfl)

lemma appliedAt_afterApplying {s : t.State} (hn : c.nodes.get? seat = some n)
    (hh : n.hosted.get? id = some ⟨id, t, replicaCount, shards⟩)
    (hs : shards[shardOfOperation op shards.length]? = some s) :
    AppliedAt id op seat c (Operable.apply s n.info.id op).2.1
      (afterApplying id op c seat n ctx replicaCount shards s) := by
  refine ⟨n, replicaCount, shards, s, hn, hh, hs, rfl, ?_⟩
  rw [afterApplying]
  split
  · rename_i hdeltas
    exact .inl ⟨by simpa using hdeltas, rfl⟩
  · exact .inr ⟨_, rfl⟩

variable (call) in
lemma applied_of_isWriteReplica (hctx : ctx.cancelled = false)
    (hn : c.nodes.get? seat = some n)
    (hh : n.hosted.get? id = some ⟨id, t, replicaCount, shards⟩) (hshards : 0 < shards.length)
    (hwrites :
      n.distributor.isWriteReplica ⟨id, shardOfOperation op shards.length⟩ n.info.id = true) :
    ∃ output c',
      exec (applyBy call seat ⟨id, t, replicaCount, shards⟩ op ctx) c = (.ok output, c') ∧
        AppliedAt id op seat c output c' := by
  obtain ⟨s, hs⟩ : ∃ s, shards[shardOfOperation op shards.length]? = some s :=
    ⟨_, List.getElem?_eq_getElem (shardOfOperation_lt hshards)⟩
  exact ⟨_, _, exec_applyBy_of_isWriteReplica call replicaCount hctx hn hs hwrites,
    appliedAt_afterApplying hn hh hs⟩

/-- What a call with an operation has to come to: nobody was reached, or a node was and the course
that the operation took from there answers. -/
def Takes (id : InstanceId) (op : t.Operation) (c : Cluster) (reach : Nat)
    (r : Except ClusterError Payload × Cluster) : Prop :=
  (∃ e, r.1 = .error e ∧ e.isUnreachable = true ∧ r.2.lasting = c.lasting) ∨
    ∃ c₁ next route appliers answer, r.1 = answer.map Wire.encode ∧ c₁.lasting = c.lasting ∧
      route.length < reach ∧ Course id op c₁ next route appliers answer r.2

variable (c seat n) in
/-- Forwarding fails with a routing error, or calls the peer that was chosen and answers what it
answers; only marks change besides. -/
lemma exec_reroute
    (peerCall : NodeInfo → ReplicaId → Payload → OperationContext → Action Cluster Payload)
    (hctx : ctx.cancelled = false) (replica : ReplicaId) (operation : Payload) :
    (∃ f, exec ((station push seat n).reroute peerCall replica operation ctx) c =
        (.error (.routing replica f), c)) ∨
      ∃ peer c', ctx.hops < n.config.maxRerouteHops ∧
        exec ((station push seat n).reroute peerCall replica operation ctx) c =
          ((exec (peerCall peer replica operation (ctx.rerouted n.info.id)) c).1, c') ∧
        c'.lasting =
          (exec (peerCall peer replica operation (ctx.rerouted n.info.id)) c).2.lasting := by
  obtain ⟨hsame, herror, hok⟩ := Station.exec_target (station push seat n) replica ctx (s := c)
  simp only [Station.reroute, exec_bind, exec_liftExcept, ensureActive_of_not_cancelled hctx]
  cases htarget : exec ((station push seat n).target replica ctx) c with
  | mk r c₀ =>
    rw [htarget] at hsame herror hok
    obtain rfl : c₀ = c := hsame
    cases r with
    | error e =>
      obtain ⟨f, rfl⟩ := herror e rfl
      exact .inl ⟨f, rfl⟩
    | ok peer =>
      have hconnect : exec ((station push seat n).connect peer) c₀ = (.ok (), c₀) := rfl
      have hhere : (station push seat n).here = n.info := rfl
      simp only [hconnect, exec_attempt, hhere]
      cases hanswer : exec (peerCall peer replica operation (ctx.rerouted n.info.id)) c₀ with
      | mk answer c₁ =>
        refine .inr ⟨peer, ?_⟩
        rw [hanswer]
        cases answer with
        | ok output =>
          exact ⟨_, hok peer rfl, rfl, lasting_reportSuccess push seat n peer⟩
        | error e =>
          by_cases he : e.isUnreachable = true
          · simp only [if_pos he]
            exact ⟨_, hok peer rfl, rfl, lasting_reportUnreachable push seat n peer⟩
          · simp only [if_neg he]
            exact ⟨_, hok peer rfl, rfl, rfl⟩

/-- A node that does not write the shard reads what the peer answers that it forwards to. -/
lemma exec_applyBy_of_not_isWriteReplica (call : OperationCall) (replicaCount : Nat)
    (hctx : ctx.cancelled = false) (hn : c.nodes.get? seat = some n)
    (hwrites :
      n.distributor.isWriteReplica ⟨id, shardOfOperation op shards.length⟩ n.info.id = false) :
    exec (applyBy call seat ⟨id, t, replicaCount, shards⟩ op ctx) c =
      exec ((station push seat n).reroute (call n.info) ⟨id, shardOfOperation op shards.length⟩
        (Wire.encode op) ctx >>= fun output =>
          (liftM (Wire.decode output : Except ClusterError t.Output) :
            Action Cluster t.Output)) c := by
  have hreplica : (⟨id, t, replicaCount, shards⟩ : Hosted).replica
      ((⟨id, t, replicaCount, shards⟩ : Hosted).shardOfOperation op) =
        ⟨id, shardOfOperation op shards.length⟩ := rfl
  have hget : exec (act seat get) c = (.ok n, c) := exec_act_of_get? hn rfl
  have hsending : ∀ a : Station Cluster → Action Cluster Payload,
      exec (sending push seat a) c = exec (a (station push seat n)) c := by
    intro a
    simp only [sending, exec_bind, exec_get, hn]
  simp only [applyBy, exec_bind, exec_liftExcept, ensureActive_of_not_cancelled hctx, hget,
    hreplica, hwrites, Bool.false_eq_true, if_false, hsending]

/-- A node that does not write the shard forwards the operation or refuses it. -/
lemma course_of_not_isWriteReplica {reach : Nat} (hctx : ctx.cancelled = false)
    (hall : AllOffer id op count bound c) (hn : c.nodes.get? seat = some n)
    (hwrites :
      n.distributor.isWriteReplica ⟨id, shardOfOperation op shards.length⟩ n.info.id = false)
    (hcall : ∀ peer, ctx.hops < n.config.maxRerouteHops →
      Takes id op c reach (exec (call n.info peer ⟨id, shardOfOperation op shards.length⟩
        (Wire.encode op) (ctx.rerouted n.info.id)) c)) :
    ∃ route appliers answer c',
      exec (applyBy call seat ⟨id, t, replicaCount, shards⟩ op ctx) c = (answer, c') ∧
        route.length ≤ reach ∧ Course id op c seat route appliers answer c' := by
  simp only [exec_applyBy_of_not_isWriteReplica call replicaCount hctx hn hwrites, exec_bind,
    exec_liftExcept]
  rcases exec_reroute c seat n (call n.info) hctx
      ⟨id, shardOfOperation op shards.length⟩ (Wire.encode op) with
    ⟨f, hrefused⟩ | ⟨peer, c', hhops, hrerouted, hlasting⟩
  · simp only [hrefused]
    exact ⟨[], [], _, _, rfl, Nat.zero_le _, .refused rfl (.inl ⟨_, _, rfl⟩)⟩
  · simp only [hrerouted]
    rcases hcall peer hhops with ⟨e, he, hunreachable, hsame⟩ |
      ⟨c₁, next, route, appliers, answer, hanswer, hbefore, hlength, hcourse⟩
    · simp only [he]
      exact ⟨[], [], _, _, rfl, Nat.zero_le _, .refused (hlasting.trans hsame)
        (.inr (.inl hunreachable))⟩
    · refine ⟨next :: route, appliers, answer, c', ?_, hlength, .forwarded hbefore hcourse hlasting⟩
      rw [hanswer]
      cases answer with
      | error e => rfl
      | ok output =>
        -- the peer's answer travelled, so it is read as it was written
        obtain ⟨applier, c₂, c₃, -, -, hc₂, happlied, -⟩ := hcourse.applied_of_ok rfl
        obtain ⟨m, rc, ss, s, hm, hh, hs, hout, -⟩ := happlied
        have htravels : LawfulWire.Travels output := by
          rw [hout]
          exact ((hall.of_lasting_eq (hc₂.trans hbefore)) applier m hm).answers rc ss s hh hs
        change ((Wire.decode (Wire.encode output) : Except ClusterError t.Output), c') = _
        rw [htravels.decode_encode]

/-! ### The chain of nodes -/

variable (call) in
/-- Whatever node an operation has reached, it takes a course that the hops left to it bound. -/
lemma course_applyBy (hctx : ctx.cancelled = false) (hcount : 0 < count)
    (hall : AllOffer id op count bound c) (hn : c.nodes.get? seat = some n)
    (hh : n.hosted.get? id = some ⟨id, t, replicaCount, shards⟩)
    (hcall : ∀ peer, ctx.hops < bound →
      Takes id op c (bound - ctx.hops) (exec (call n.info peer ⟨id, shardOfOperation op count⟩
        (Wire.encode op) (ctx.rerouted n.info.id)) c)) :
    ∃ route appliers answer c',
      exec (applyBy call seat ⟨id, t, replicaCount, shards⟩ op ctx) c = (answer, c') ∧
        route.length ≤ bound - ctx.hops ∧ Course id op c seat route appliers answer c' := by
  have hlength : shards.length = count := by
    obtain ⟨rc, ss, hh', hlength⟩ := (hall seat n hn).hosts
    rw [hh] at hh'
    cases hh'
    exact hlength
  subst hlength
  cases hwrites :
    n.distributor.isWriteReplica ⟨id, shardOfOperation op shards.length⟩ n.info.id with
  | true =>
    obtain ⟨output, c', hexec, happlied⟩ := applied_of_isWriteReplica call hctx hn hh hcount
      hwrites
    exact ⟨[], [seat], .ok output, c', hexec, Nat.zero_le _, .applied happlied⟩
  | false =>
    exact course_of_not_isWriteReplica hctx hall hn hwrites fun peer hhops =>
      hcall peer (Nat.lt_of_lt_of_le hhops (hall seat n hn).hops)

lemma rerouted_hops (node : NodeId) (h : ctx.hops < bound) (hbound : bound < word32) :
    (ctx.rerouted node).hops = ctx.hops + 1 := by
  simp only [OperationContext.rerouted]
  omega

lemma exec_executeBy (hop : LawfulWire.Travels op) (hn : c.nodes.get? seat = some n)
    (hh : n.hosted.get? id = some ⟨id, t, replicaCount, shards⟩) (hlength : shards.length = count)
    {answer : Except ClusterError t.Output}
    (hexec : exec (applyBy call seat ⟨id, t, replicaCount, shards⟩ op ctx) c = (answer, c')) :
    exec (executeBy call seat ⟨id, shardOfOperation op count⟩ (Wire.encode op) ctx) c =
      (answer.map Wire.encode, c') := by
  have hhosted : exec (act seat (Node.hostedInstance id)) c =
      (.ok ⟨id, t, replicaCount, shards⟩, c) :=
    exec_act_of_get? hn (Node.exec_hostedInstance_of_get? hh)
  rw [executeBy, exec_bind_ok hhosted, exec_bind, exec_liftExcept, hop.decode_encode]
  have hshard : (⟨id, t, replicaCount, shards⟩ : Hosted).shardOfOperation op =
      shardOfOperation op count := by
    rw [← hlength]
    rfl
  simp only [hshard, ne_eq, not_true_eq_false, if_false, exec_bind, hexec]
  cases answer <;> rfl

variable (call) in
lemma exec_executeBy_of_lt_nesting (hop : LawfulWire.Fits op)
    (hdeep : Json.Reader.maxOpen < (toJson op).nesting) (hn : c.nodes.get? seat = some n)
    (hh : n.hosted.get? id = some ⟨id, t, replicaCount, shards⟩) :
    exec (executeBy call seat ⟨id, shardOfOperation op count⟩ (Wire.encode op) ctx) c =
      (.error (.serialization "the text does not decode"), c) := by
  have hhosted : exec (act seat (Node.hostedInstance id)) c =
      (.ok ⟨id, t, replicaCount, shards⟩, c) :=
    exec_act_of_get? hn (Node.exec_hostedInstance_of_get? hh)
  rw [executeBy, exec_bind_ok hhosted, exec_bind, exec_liftExcept,
    LawfulWire.decode_encode_of_lt_nesting hop hdeep]

variable (call seat) in
/-- A node that an operation has been forwarded to takes it from there. -/
lemma course_executeBy (hop : LawfulWire.Fits op) (hcount : 0 < count)
    (hctx : ctx.cancelled = false) (hall : AllOffer id op count bound c)
    (hcall : ∀ n, c.nodes.get? seat = some n → ∀ peer, ctx.hops < bound →
      Takes id op c (bound - ctx.hops) (exec (call n.info peer ⟨id, shardOfOperation op count⟩
        (Wire.encode op) (ctx.rerouted n.info.id)) c)) :
    ∃ route appliers answer c',
      exec (executeBy call seat ⟨id, shardOfOperation op count⟩ (Wire.encode op) ctx) c =
          (answer.map Wire.encode, c') ∧
        route.length ≤ bound - ctx.hops ∧ Course id op c seat route appliers answer c' := by
  cases hn : c.nodes.get? seat with
  | none =>
    have hgone := exec_act_gone (a := Node.hostedInstance id) hn
    exact ⟨[], [], .error _, c, exec_bind_error hgone, Nat.zero_le _,
      .refused rfl (.inr (.inl rfl))⟩
  | some n =>
    obtain ⟨replicaCount, shards, hh, hlength⟩ := (hall seat n hn).hosts
    rcases Nat.lt_or_ge Json.Reader.maxOpen (toJson op).nesting with hdeep | hnesting
    · exact ⟨[], [], .error _, c, exec_executeBy_of_lt_nesting call hop hdeep hn hh,
        Nat.zero_le _, .refused rfl (.inr (.inr ⟨_, rfl⟩))⟩
    · obtain ⟨route, appliers, answer, c', hexec, hroute, hcourse⟩ :=
        course_applyBy call hctx hcount hall hn hh (hcall n hn)
      exact ⟨route, appliers, answer, c', exec_executeBy ⟨hop, hnesting⟩ hn hh hlength hexec,
        hroute, hcourse⟩

/-- A call takes a course, if only the fuel suffices for the hops that are left. -/
lemma takes_callWithin (hop : LawfulWire.Fits op) (hcount : 0 < count)
    (hbound : bound < word32) {fuel : Nat} {caller peer : NodeInfo} (hctx : ctx.cancelled = false)
    (hhops : ctx.hops ≤ bound) (hfuel : bound < fuel + ctx.hops)
    (hall : AllOffer id op count bound c) :
    Takes id op c (bound + 1 - ctx.hops)
      (exec (callWithin fuel caller peer ⟨id, shardOfOperation op count⟩ (Wire.encode op) ctx)
        c) := by
  induction fuel generalizing caller peer ctx c with
  | zero => omega
  | succ fuel ih =>
    obtain ⟨hlasting, hunreachable⟩ := exec_connect (c := c) hctx caller.address peer.address
    rw [callWithin, exec_bind]
    cases hconnect : exec (connect caller.address peer.address ctx) c with
    | mk r c₁ =>
      rw [hconnect] at hlasting hunreachable
      cases r with
      | error e => exact .inl ⟨e, rfl, hunreachable e rfl, hlasting⟩
      | ok next =>
        have hall₁ := hall.of_lasting_eq hlasting
        obtain ⟨route, appliers, answer, c', hexec, hroute, hcourse⟩ :=
          course_executeBy next (callWithin fuel) hop hcount hctx hall₁
            fun n hn peer' hlt => by
              have hnext := rerouted_hops n.info.id hlt hbound
              have hleft : bound - ctx.hops = bound + 1 - (ctx.rerouted n.info.id).hops := by omega
              rw [hleft]
              exact ih hctx (by omega) (by omega) hall₁
        refine .inr ⟨c₁, next, route, appliers, answer, ?_, hlasting, by omega, ?_⟩
        · simp only [hexec]
        · simpa only [hexec] using hcourse

lemma hopBound_spec (c : Cluster) :
    (∀ seat n, c.nodes.get? seat = some n → n.config.maxRerouteHops < c.hopBound) ∧
      ∀ bound, (∀ seat n, c.nodes.get? seat = some n → n.config.maxRerouteHops ≤ bound) →
        c.hopBound ≤ bound + 1 := by
  have hfold : ∀ (l : List Nat) (m : Nat), (∀ k ∈ l, k ≤ l.foldl max m) ∧ m ≤ l.foldl max m ∧
      ∀ bound, m ≤ bound → (∀ k ∈ l, k ≤ bound) → l.foldl max m ≤ bound := by
    intro l
    induction l with
    | nil => simp
    | cons a l ih =>
      intro m
      obtain ⟨hmem, hle, hleast⟩ := ih (max m a)
      rw [List.foldl_cons]
      refine ⟨fun k hk => ?_, by omega, fun bound hm hk => ?_⟩
      · rcases List.mem_cons.mp hk with rfl | hk
        · omega
        · exact hmem k hk
      · exact hleast bound (by have := hk a (by simp); omega) fun k hk' => hk k (by simp [hk'])
  obtain ⟨hmem, -, hleast⟩ := hfold (c.nodes.values.map fun n => n.config.maxRerouteHops) 0
  refine ⟨fun seat n hn => ?_, fun bound h => ?_⟩
  · have := hmem _ (List.mem_map_of_mem (SortedMap.mem_values.mpr ⟨seat, hn⟩))
    rw [hopBound]
    omega
  · have := hleast bound (Nat.zero_le _) fun k hk => by
      obtain ⟨n, hn, rfl⟩ := List.mem_map.mp hk
      obtain ⟨seat, hseat⟩ := SortedMap.mem_values.mp hn
      exact h seat n hseat
    rw [hopBound]
    omega

lemma exec_call (caller peer : NodeInfo) (replica : ReplicaId) (operation : Payload) :
    exec (Cluster.call caller peer replica operation ctx) c =
      exec (callWithin c.hopBound caller peer replica operation ctx) c := by
  rw [Cluster.call, exec_bind, exec_get]

/-- A node whose choice falls on a peer that applies the operation reads what the peer answers. -/
lemma exec_applyWith_of_forwarded {m : Node} {next : Seat} {replicaCount' : Nat}
    {shards' : List t.State} {output : t.Output} {c₂ : Cluster} (hop : LawfulWire.Travels op)
    (hctx : ctx.cancelled = false) (hn : c.nodes.get? seat = some n)
    (hwrites :
      n.distributor.isWriteReplica ⟨id, shardOfOperation op shards.length⟩ n.info.id = false)
    (htarget : exec ((station push seat n).target ⟨id, shardOfOperation op shards.length⟩ ctx) c =
      (.ok m.info, c))
    (hcaller : c.isReachable n.info.address = true) (hcallee : c.isReachable m.info.address = true)
    (hserved : c.services.get? m.info.address = some next) (hm : c.nodes.get? next = some m)
    (hh : m.hosted.get? id = some ⟨id, t, replicaCount', shards'⟩)
    (hlength : shards'.length = shards.length)
    (hexec : exec (applyBy (callWithin (c.hopBound - 1)) next ⟨id, t, replicaCount', shards'⟩ op
        (ctx.rerouted n.info.id))
      { c with calls := c.calls.alter m.info.address fun k => k.getD 0 + 1 } = (.ok output, c₂)) :
    exec (applyWith seat ⟨id, t, replicaCount, shards⟩ op ctx) c =
      (Wire.decode (Wire.encode output),
        (((station push seat n).reportSuccess m.info).run c₂).2) := by
  have hctx' : (ctx.rerouted n.info.id).cancelled = false := hctx
  have hconnect := exec_connect_of_reachable hctx' hcaller hcallee hserved
  have hcall : exec (Cluster.call n.info m.info ⟨id, shardOfOperation op shards.length⟩
      (Wire.encode op) (ctx.rerouted n.info.id)) c = (.ok (Wire.encode output), c₂) := by
    have hfuel : c.hopBound = c.hopBound - 1 + 1 := rfl
    rw [exec_call, hfuel, callWithin, exec_bind_ok hconnect]
    exact exec_executeBy
      (c := { c with calls := c.calls.alter m.info.address fun k => k.getD 0 + 1 })
      hop hm hh hlength hexec
  have hreroute := Station.exec_reroute_of_answer hctx htarget rfl hcall
  rw [applyWith, exec_applyBy_of_not_isWriteReplica Cluster.call replicaCount hctx hn hwrites,
    exec_bind_ok hreroute, exec_liftExcept]

/-- **An operation is applied exactly once or not at all.** Let every node host the instance with
one number of shards, whatever it makes of placement and of its peers. Then an operation that enters
at a node takes a course with no more forwards than the greatest hop limit. It answers if and only
if one node applied it, once, to the shard of its key, and then answers what came of it there; if it
fails, every shard of every node is as it was. What a node answers has to travel. -/
theorem applied_once_or_not_at_all (hop : LawfulWire.Fits op) (hcount : 0 < count)
    (hbound : bound < word32) (hctx : ctx.cancelled = false) (hall : AllOffer id op count bound c)
    (hn : c.nodes.get? seat = some n)
    (hh : n.hosted.get? id = some ⟨id, t, replicaCount, shards⟩) :
    ∃ route appliers answer c',
      exec (applyWith seat ⟨id, t, replicaCount, shards⟩ op ctx) c = (answer, c') ∧
      Course id op c seat route appliers answer c' ∧ route.length ≤ bound ∧
      (answer.isOk = true ↔ ∃ applier, appliers = [applier]) ∧
      (∀ output, answer = .ok output → ∃ applier c₁ c₂, appliers = [applier] ∧
        c₁.shards = c.shards ∧ AppliedAt id op applier c₁ output c₂ ∧ c'.shards = c₂.shards) ∧
      (∀ e, answer = .error e → appliers = [] ∧ c'.shards = c.shards) := by
  obtain ⟨hbelow, hleast⟩ := hopBound_spec c
  have hlimit : c.hopBound - 1 ≤ bound := by
    have := hleast bound fun seat n hn => (hall seat n hn).hops
    omega
  have hall' : AllOffer id op count (c.hopBound - 1) c := fun seat n hn =>
    ⟨(hall seat n hn).hosts, by have := hbelow seat n hn; omega, (hall seat n hn).answers⟩
  have hfuel : 0 < c.hopBound := Nat.zero_lt_of_lt (hbelow seat n hn)
  obtain ⟨route, appliers, answer, c', hexec, hroute, hcourse⟩ :=
    course_applyBy Cluster.call hctx hcount hall' hn hh fun peer hlt => by
      have hnext := rerouted_hops n.info.id hlt (by omega)
      have hleft : c.hopBound - 1 - ctx.hops =
          c.hopBound - 1 + 1 - (ctx.rerouted n.info.id).hops := by omega
      rw [exec_call, hleft]
      exact takes_callWithin hop hcount (by omega) hctx (by omega) (by omega) hall'
  refine ⟨route, appliers, answer, c', by rw [applyWith, hexec], hcourse, by omega, ?_,
    fun output houtput => ?_, fun e he => ?_⟩
  · obtain ⟨hok, herror⟩ := hcourse.appliers_of_answer
    cases answer with
    | ok output => simpa [Except.isOk, Except.toBool] using hok output rfl
    | error e => simp [Except.isOk, Except.toBool, herror e rfl]
  · obtain ⟨applier, c₁, c₂, happliers, -, hc₁, happlied, hc₂⟩ := hcourse.applied_of_ok houtput
    exact ⟨applier, c₁, c₂, happliers, shards_eq_of_lasting_eq hc₁, happlied,
      shards_eq_of_lasting_eq hc₂⟩
  · exact ⟨hcourse.appliers_of_answer.2 e he,
      shards_eq_of_lasting_eq (hcourse.lasting_of_error he).1⟩

/-! ### Few nodes that host one set -/

def setHost (info : NodeInfo) (writers : List NodeInfo) : Node :=
  { Node.create info {} [.orSet .string] Selection.allNodes Selection.ringSuccessor
      Selection.ringSuccessor with
    hosted := SortedMap.empty.insert "t" ⟨"t", .orSet .string, 1, [OrSet.empty]⟩
    distributor :=
      { Distributor.ofThreshold Placement.ringDistribution 0.25 with
        plan := SortedMap.empty.insert ⟨"t", 0⟩ ⟨writers, writers⟩ } }

lemma named_setHost (info : NodeInfo) (writers : List NodeInfo) : (setHost info writers).Named := by
  intro id h hh
  by_cases hid : id = "t"
  · subst hid
    cases hh
    rfl
  · have hnone := (SortedMap.get?_insert_of_ne hid).symm.trans hh
    cases hnone

lemma writeReplicas_setHost (info : NodeInfo) (writers : List NodeInfo) (item : String) :
    (setHost info writers).distributor.writeReplicas
      ⟨"t", shardOfOperation (t := .orSet .string) (OrSetOperation.add item) 1⟩ = writers := by
  have hshard : shardOfOperation (t := .orSet .string) (OrSetOperation.add item) 1 = 0 :=
    shardOfOperation_one _
  rw [hshard]
  rfl

def trio (a b c : Node) : Cluster :=
  { empty 0 with
    nodes := ((SortedMap.empty.insert 0 a).insert 1 b).insert 2 c
    started := 3
    services := ((SortedMap.empty.insert a.info.address 0).insert b.info.address 1).insert
      c.info.address 2 }

lemma node_trio {a b c n : Node} {seat : Seat} (hn : (trio a b c).nodes.get? seat = some n) :
    seat = 0 ∧ n = a ∨ seat = 1 ∧ n = b ∨ seat = 2 ∧ n = c := by
  by_cases hc : seat = 2
  · subst hc
    exact .inr (.inr ⟨rfl, (Option.some.inj hn).symm⟩)
  · by_cases hb : seat = 1
    · subst hb
      exact .inr (.inl ⟨rfl, (Option.some.inj hn).symm⟩)
    · by_cases ha : seat = 0
      · subst ha
        exact .inl ⟨rfl, (Option.some.inj hn).symm⟩
      · rw [trio, SortedMap.get?_insert_of_ne hc, SortedMap.get?_insert_of_ne hb,
          SortedMap.get?_insert_of_ne ha] at hn
        cases hn

def duo (a b : Node) : Cluster :=
  { empty 0 with
    nodes := (SortedMap.empty.insert 0 a).insert 1 b
    started := 2
    services := (SortedMap.empty.insert a.info.address 0).insert b.info.address 1 }

lemma node_duo {a b n : Node} {seat : Seat} (hn : (duo a b).nodes.get? seat = some n) :
    seat = 0 ∧ n = a ∨ seat = 1 ∧ n = b := by
  by_cases hb : seat = 1
  · subst hb
    exact .inr ⟨rfl, (Option.some.inj hn).symm⟩
  · by_cases ha : seat = 0
    · subst ha
      exact .inl ⟨rfl, (Option.some.inj hn).symm⟩
    · rw [duo, SortedMap.get?_insert_of_ne hb, SortedMap.get?_insert_of_ne ha] at hn
      cases hn

lemma served_duo {a b : Node} (hne : a.info.address ≠ b.info.address) :
    (duo a b).services.get? a.info.address = some 0 ∧
      (duo a b).services.get? b.info.address = some 1 :=
  ⟨(SortedMap.get?_insert_of_ne hne).trans SortedMap.get?_insert_self, SortedMap.get?_insert_self⟩

/-- The one at seat 0 believes that the one at seat 1 writes the set. -/
def setHosts : Cluster :=
  let b : NodeInfo := ⟨"b", "mem://b"⟩
  duo (setHost ⟨"a", "mem://a"⟩ [b]) (setHost b [b])

/-- An addition that enters at the first node is applied once if it is answered, and not at all if
it fails. -/
theorem forwarded_once_or_not_at_all :
    ∃ route appliers answer c',
      exec (applyWith 0 ⟨"t", .orSet .string, 1, [OrSet.empty]⟩ (OrSetOperation.add "x")
        (.fresh "" 0)) setHosts = (answer, c') ∧
      Course (t := .orSet .string) "t" (OrSetOperation.add "x") setHosts 0 route appliers answer
        c' ∧
      route.length ≤ 3 ∧ (answer.isOk = true ↔ ∃ applier, appliers = [applier]) ∧
      (∀ e, answer = .error e → appliers = [] ∧ c'.shards = setHosts.shards) := by
  have hall : AllOffer (t := .orSet .string) "t" (OrSetOperation.add "x") 1 3 setHosts := by
    intro seat n hn
    have hhost : ∃ info writers, n = setHost info writers := by
      rcases node_duo hn with ⟨-, rfl⟩ | ⟨-, rfl⟩ <;> exact ⟨_, _, rfl⟩
    obtain ⟨info, writers, rfl⟩ := hhost
    exact ⟨⟨1, [OrSet.empty], rfl, rfl⟩, Nat.le_refl 3,
      fun _ _ _ _ _ => .of_depth trivial (by decide)⟩
  have hop : LawfulWire.Fits (α := CrdtType.Operation (.orSet .string)) (OrSetOperation.add "x") :=
    trivial
  have hctx : (OperationContext.fresh "" 0).cancelled = false := rfl
  obtain ⟨route, appliers, answer, c', hexec, hcourse, hlength, hiff, -, herror⟩ :=
    applied_once_or_not_at_all hop (by decide) (by decide) hctx hall
      (rfl : setHosts.nodes.get? 0 = some _) rfl
  exact ⟨route, appliers, answer, c', hexec, hcourse, hlength, hiff, herror⟩

/-! ### An answer that is too deep -/

def hostOf (info : NodeInfo) (writers : List NodeInfo) (s : t.State) : Node :=
  { setHost info writers with hosted := SortedMap.empty.insert "t" ⟨"t", t, 1, [s]⟩ }

/-- Two nodes that host a register in so many maps, of which the second writes it. -/
def deepHosts (k : Nat) : Cluster :=
  let b : NodeInfo := ⟨"b", "mem://b"⟩
  duo (hostOf ⟨"a", "mem://a"⟩ [b] (CrdtType.writtenWithin k))
    (hostOf b [b] (CrdtType.writtenWithin k))

lemma travels_write {k : Nat} (hk : k ≤ 126) :
    LawfulWire.Travels (CrdtType.within (CrdtType.write "y" 1) k) where
  fits := CrdtType.fits_within
    (⟨trivial, trivial, (by decide : 1 < word64)⟩ : LawfulWire.Fits (CrdtType.write "y" 1)) k
  nesting := by
    rw [CrdtType.nesting_within, Json.Reader.maxOpen]
    exact Nat.succ_le_succ hk

lemma writeReplicas_hostOf (info : NodeInfo) (writers : List NodeInfo) (s : t.State)
    (op : t.Operation) :
    (hostOf info writers s).distributor.writeReplicas ⟨"t", shardOfOperation op 1⟩ = writers := by
  rw [shardOfOperation_one]
  rfl

lemma setHosted_hostOf (info : NodeInfo) (writers : List NodeInfo) (s s' : t.State) :
    (hostOf info writers s).setHosted ⟨"t", t, 1, [s']⟩ = hostOf info writers s' :=
  congrArg (fun hosted => { hostOf info writers s with hosted }) SortedMap.insert_insert

lemma isWriteReplica_hostOf (info : NodeInfo) (writers : List NodeInfo) (s : t.State)
    (op : t.Operation) (id : NodeId) :
    (hostOf info writers s).distributor.isWriteReplica ⟨"t", shardOfOperation op 1⟩ id =
      writers.any fun n => n.id = id := by
  rw [Distributor.isWriteReplica, writeReplicas_hostOf]

/-- The first node forwards to the second one. -/
lemma exec_target_deepHosts (k : Nat)
    (op : ((CrdtType.registry .string .string).inMaps k).Operation) :
    let a : NodeInfo := ⟨"a", "mem://a"⟩
    let b : NodeInfo := ⟨"b", "mem://b"⟩
    exec ((station push 0 (hostOf a [b] (CrdtType.writtenWithin k))).target
      ⟨"t", shardOfOperation op 1⟩ (.fresh "" 0)) (deepHosts k) = (.ok b, deepHosts k) := by
  intro a b
  let n := hostOf a [b] (CrdtType.writtenWithin k)
  have hn : (deepHosts k).nodes.get? 0 = some n := rfl
  have hunmarked (w : NodeInfo) : (station push 0 n).isUnreachable (deepHosts k) w.id = false :=
    isUnreachable_station push hn _
  have hpick : Selection.ringSuccessor a [b] = [b] := by decide +kernel
  refine Station.exec_target_of_pick (by decide : 0 < 3) (show _ = [b] from ?_)
    (by decide : "b" ≠ "a") nofun
  simp only [hunmarked, distributor_station push hn, n, writeReplicas_hostOf, Bool.not_false,
    List.filter_true]
  exact hpick

/-- A node with a single shard that has no budget to push what it applies. -/
lemma hosted_afterApplying {s : t.State} (hctx : ctx.cancelled = false) (hbudget : ctx.budget = 0) :
    ((afterApplying id op c seat n ctx replicaCount [s] s).shards seat).bind (·.get? id) =
      some ⟨id, t, replicaCount, [(Operable.apply s n.info.id op).1]⟩ := by
  let ctx' := if n.config.awaitPropagation then ctx else ctx.detached
  have hquiet : ctx'.cancelled = false ∧ ctx'.budget = 0 := by
    dsimp only [ctx']
    split
    · exact ⟨hctx, hbudget⟩
    · exact ⟨rfl, hbudget⟩
  rw [afterApplying]
  simp only [List.length_singleton, shardOfOperation_one, List.set_cons_zero]
  split
  · rw [shards, SortedMap.get?_insert_self]
    exact SortedMap.get?_insert_self
  · rw [exec_announce_of_budget_eq_zero SortedMap.get?_insert_self hquiet.1 hquiet.2, shards,
      SortedMap.get?_insert_self]
    exact SortedMap.get?_insert_self

/-- A write that enters at the first node is applied at the second, and what it answers is read from
a payload. -/
lemma exec_write_deepHosts {k : Nat} (hk : k ≤ 126) :
    let op := CrdtType.within (CrdtType.write "y" 1) k
    let applied := Operable.apply (CrdtType.writtenWithin k) "b" op
    ∃ c', exec (applyWith 0 ⟨"t", _, 1, [CrdtType.writtenWithin k]⟩ op (.fresh "" 0))
        (deepHosts k) = (Wire.decode (Wire.encode applied.2.1), c') ∧
      (c'.shards 1).bind (·.get? "t") = some ⟨"t", _, 1, [applied.1]⟩ := by
  intro op applied
  let n := hostOf ⟨"a", "mem://a"⟩ [⟨"b", "mem://b"⟩] (CrdtType.writtenWithin k)
  let m := hostOf ⟨"b", "mem://b"⟩ [⟨"b", "mem://b"⟩] (CrdtType.writtenWithin k)
  let ctx : OperationContext := .fresh "" 0
  have hn : (deepHosts k).nodes.get? 0 = some n := rfl
  have hm : (deepHosts k).nodes.get? 1 = some m := rfl
  have hreads : n.distributor.isWriteReplica ⟨"t", shardOfOperation op 1⟩ "a" = false := by
    rw [isWriteReplica_hostOf]
    decide
  have hwrites : m.distributor.isWriteReplica ⟨"t", shardOfOperation op 1⟩ "b" = true := by
    rw [isWriteReplica_hostOf]
    decide
  have hserved : (deepHosts k).services.get? m.info.address = some 1 := SortedMap.get?_insert_self
  have happly (c : Cluster) (hc : c.nodes.get? 1 = some m) :=
    exec_applyBy_of_isWriteReplica (callWithin ((deepHosts k).hopBound - 1)) 1
      (rfl : (ctx.rerouted "a").cancelled = false) hc
      (getElem?_shardOfOperation_one op (CrdtType.writtenWithin k)) hwrites
  refine ⟨_, exec_applyWith_of_forwarded (travels_write hk) rfl hn hreads
    (exec_target_deepHosts k op) rfl rfl hserved hm rfl rfl (happly _ hm), ?_⟩
  rw [congrFun (shards_eq_of_lasting_eq (lasting_reportSuccess push 0 n m.info)) 1]
  exact hosted_afterApplying rfl rfl

/-- A conflict that comes back through too many maps is applied, and yet the call fails. -/
theorem applied_yet_unanswered :
    ∃ e c', exec (applyWith 0 ⟨"t", _, 1, [CrdtType.writtenWithin 126]⟩
        (CrdtType.within (CrdtType.write "y" 1) 126) (.fresh "" 0)) (deepHosts 126) =
          (.error e, c') ∧
      c'.shards ≠ (deepHosts 126).shards := by
  obtain ⟨c', hexec, hshards⟩ := exec_write_deepHosts (le_refl 126)
  rw [CrdtType.decode_output_writtenWithin (le_refl 126)] at hexec
  refine ⟨_, c', hexec, fun hsame => CrdtType.apply_writtenWithin_ne 125 ?_⟩
  rw [hsame] at hshards
  have hbefore : ((deepHosts 126).shards 1).bind (·.get? "t") =
      some ⟨"t", _, 1, [CrdtType.writtenWithin 126]⟩ := rfl
  have hlist := (Hosted.mk.inj (Option.some.inj (hshards.symm.trans hbefore))).2.2.2
  exact (List.singleton_inj.mp (eq_of_heq hlist))

end Cluster

end DeltaRing
