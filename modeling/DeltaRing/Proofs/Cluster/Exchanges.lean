import DeltaRing.Cluster.Round
import DeltaRing.Proofs.Cluster.Exec
import DeltaRing.Proofs.Exchange.Schedule
import DeltaRing.Proofs.Node.Resume

/-!
What an exchange between two nodes of a cluster leaves behind.

Both sides are stored where they came from, and the calling node notes what came of it. Everything
else about the nodes and the network is as it was, apart from the count of the call.
-/

namespace DeltaRing

open DeltaRing.Action Exchange

variable {n n' : Node} {r : ReplicaId}

inductive Is {t : CrdtType} (s : t.State) : (t' : CrdtType) → t'.State → Prop
  | intro : Is s t s

lemma Node.Holds.exists_hosted {t : CrdtType} {s : t.State} (h : n.Holds r (Is s)) :
    ∃ id count shards, n.hosted.get? r.instanceId = some ⟨id, t, count, shards⟩ ∧
      (⟨id, t, count, shards⟩ : Hosted).shard r.shard = .ok s := by
  obtain ⟨⟨id, t', count, shards⟩, s', hh, hs, his⟩ := h
  cases his
  exact ⟨id, count, shards, hh, hs⟩

/-- A node that can take part in exchanges: it has not been shut down, it makes batches of
something, and its queues are not too large. -/
structure Node.Ready (n : Node) : Prop where
  up : n.stopped = false
  batches : 0 < n.config.exchangeBatchSize
  room : n.config.exchangeChannelCapacity ≤ maxCapacity

lemma Node.Ready.checkCapacity (h : n.Ready) :
    checkCapacity n.config.exchangeChannelCapacity = .ok () := by
  rw [Exchange.checkCapacity, if_neg h.room.not_gt]

lemma Metadata.setTable_table (m : Metadata) (k : MetadataKind) : m.setTable k (m.table k) = m := by
  cases k <;> rfl

/-- A node has another state of a table, and has taken it to placement if it is news. -/
def Node.withTable (n : Node) (k : MetadataKind) (table : Metadata.Table k) (news : Bool) : Node :=
  let n := { n with metadata := n.metadata.setTable k table }
  if news then n.refreshTopology.1 else n

lemma Node.withTable_table (n : Node) (k : MetadataKind) :
    n.withTable k (n.metadata.table k) false = n := by
  simp only [withTable, Metadata.setTable_table, Bool.false_eq_true, if_false]

/-! ### What a node notes -/

/-- The node has noted how exchanges ended: it marks no more peers than before, and has no more
replicas that are to catch up. -/
structure Node.Noting (n n' : Node) : Prop where
  rest : n' = { n with outbox := n'.outbox, progress := n'.progress, resume := n'.resume }
  marks : ∀ timer id, n'.outbox.failures.isUnreachable timer id = true →
    n.outbox.failures.isUnreachable timer id = true
  resume : ∀ r, n.resume.get? r = none → n'.resume.get? r = none

namespace Node.Noting

instance : IsPreorder Node Node.Noting where
  refl _ := ⟨rfl, fun _ _ => id, fun _ => id⟩
  trans _ n₁ _ h h' := by
    refine ⟨?_, fun t id => h.marks t id ∘ h'.marks t id, fun r => h'.resume r ∘ h.resume r⟩
    rw [h'.rest, h.rest]

lemma hosted (h : n.Noting n') : n'.hosted = n.hosted := by rw [h.rest]

lemma info (h : n.Noting n') : n'.info = n.info := by rw [h.rest]

lemma ready (h : n.Noting n') (hn : n.Ready) : n'.Ready := by
  rw [h.rest]
  exact ⟨hn.up, hn.batches, hn.room⟩

lemma isUnreachable (h : n.Noting n') {timer : Nat} {id : NodeId}
    (hfree : n.outbox.failures.isUnreachable timer id = false) :
    n'.outbox.failures.isUnreachable timer id = false := by
  rw [← Bool.not_eq_true] at hfree ⊢
  exact fun hmarked => hfree (h.marks timer id hmarked)

lemma holds {P : (t : CrdtType) → t.State → Prop} (h : n.Noting n') (hholds : n.Holds r P) :
    n'.Holds r P :=
  hholds.of_hosted fun _ hh => h.hosted ▸ hh

end Node.Noting

lemma FailureDetector.isUnreachable_reportSuccess {f : FailureDetector} {peer : NodeInfo}
    {timer : Nat} {id : NodeId} (h : (f.reportSuccess peer).isUnreachable timer id = true) :
    f.isUnreachable timer id = true := by
  rw [reportSuccess] at h
  split at h
  · by_cases hid : id = peer.id
    · subst hid
      simp [isUnreachable, announce] at h
    · rw [isUnreachable, announce, SortedMap.get?_erase_of_ne hid] at h
      exact h
  · exact h

/-- Whether or not the replica has caught up, the rest of the node stays. -/
lemma Node.noting_finishResume (r : ReplicaId) (hh : (n.hosted.get? r.instanceId).isSome) :
    n.Noting ((finishResume r).run n).2 := by
  have hcovers (ts : Payload) : (exec (covers r ts) n).2 = n := by
    obtain ⟨h, hh⟩ := Option.isSome_iff_exists.mp hh
    rw [covers, exec_bind_ok (exec_hostedInstance_of_get? hh), exec_liftExcept]
  rw [run_finishResume]
  cases n.resume.get? r with
  | none => exact refl_of Noting n
  | some c =>
    have hsame := hcovers c.localTimestamp
    dsimp only
    split
    · rename_i n₁ hexec
      rw [hexec] at hsame
      obtain rfl := hsame
      refine ⟨rfl, fun _ _ => id, fun r' hr' => ?_⟩
      by_cases hr : r' = r
      · subst hr
        exact SortedMap.get?_erase_self
      · exact (SortedMap.get?_erase_of_ne hr).trans hr'
    · rename_i hexec
      rw [hexec] at hsame
      obtain rfl := hsame
      exact refl_of Noting _

lemma Node.setHosted_setShard_of_shard {h : Hosted} {s : h.type.State} {shard : ShardId}
    (hh : n.hosted.get? h.id = some h) (hs : h.shard shard = .ok s) :
    n.setHosted (h.setShard shard s) = n := by
  have hsame : h.setShard shard s = h := by
    obtain ⟨hlt, rfl⟩ := List.getElem?_eq_some_iff.mp (Hosted.shard_eq_ok.mp hs)
    rw [Hosted.setShard, List.set_getElem_self hlt]
  rw [setHosted, hsame, SortedMap.insert_of_get? hh]

/-- A node stores one state of a replica. -/
lemma Node.Holds.of_is {t : CrdtType} {a : t.State} {P : (t : CrdtType) → t.State → Prop}
    (ha : n.Holds r (Is a)) (hP : n.Holds r P) : P t a := by
  obtain ⟨h, s, hh, hs, his⟩ := ha
  obtain ⟨h', s', hh', hs', hholds⟩ := hP
  obtain rfl := Option.some.inj (hh.symm.trans hh')
  obtain rfl := Except.ok.inj (hs.symm.trans hs')
  cases his
  exact hholds

lemma Node.Holds.eq_of_is {t : CrdtType} {a b : t.State} (ha : n.Holds r (Is a))
    (hb : n.Holds r (Is b)) : a = b := by
  cases ha.of_is hb
  rfl

namespace Cluster

variable {c c₁ c' : Cluster} {seat peer : Seat} {m n₁ : Node} {p : NodeInfo} {s : RoundSummary}
  {report : Report}

/-- One node has changed, calls have been counted, and all else is as before. -/
structure Apart (seat : Seat) (c c' : Cluster) : Prop where
  others : ∀ k ≠ seat, c'.nodes.get? k = c.nodes.get? k
  around : c' = { c with nodes := c'.nodes, calls := c'.calls }

instance : IsPreorder Cluster (Apart seat) where
  refl _ := ⟨fun _ _ => rfl, rfl⟩
  trans _ c₁ _ h h' := by
    refine ⟨fun k hk => (h'.others k hk).trans (h.others k hk), ?_⟩
    rw [h'.around, h.around]

lemma Apart.services (h : Apart seat c c') : c'.services = c.services := by rw [h.around]

lemma Apart.cut (h : Apart seat c c') : c'.cut = c.cut := by rw [h.around]

lemma apart_insert (c : Cluster) (seat : Seat) (n : Node) :
    Apart seat c { c with nodes := c.nodes.insert seat n } :=
  ⟨fun _ hk => SortedMap.get?_insert_of_ne hk, rfl⟩

lemma exec_act_apart {α : Type} {a : Action Node α} {x : α} (hn : c.nodes.get? seat = some n)
    (ha : exec a n = (.ok x, n')) : ∃ c', exec (act seat a) c = (.ok x, c') ∧ Apart seat c c' ∧
      c'.nodes.get? seat = some n' := by
  refine ⟨_, ?_, apart_insert c seat n', SortedMap.get?_insert_self⟩
  rw [exec_act hn, ha]

lemma exec_reportSuccess (hn : c.nodes.get? seat = some n) (p : NodeInfo) :
    ∃ c' n', exec (sending push seat fun st => liftM (st.reportSuccess p)) c = (.ok (), c') ∧
      Apart seat c c' ∧ c'.nodes.get? seat = some n' ∧ n.Noting n' := by
  let outbox : Outbox := { n.outbox with failures := n.outbox.failures.reportSuccess p }
  refine ⟨(station push seat n).setOutbox outbox c, { n with outbox }, ?_, ⟨fun k hk => ?_, rfl⟩,
    ?_, ⟨rfl, fun _ _ => FailureDetector.isUnreachable_reportSuccess, fun _ => id⟩⟩
  · have houtbox : (station push seat n).outbox c = n.outbox := by
      simp only [station, SortedMap.getD, hn, Option.getD_some]
    simp only [sending, exec_bind, exec_get, hn, exec_liftState]
    change (Except.ok (), (station push seat n).setOutbox
      { (station push seat n).outbox c with
        failures := ((station push seat n).outbox c).failures.reportSuccess p } c) = _
    rw [houtbox]
  · simp [station, SortedMap.modify, hk.symm]
  · simp [station, SortedMap.modify, hn]

/-- A caller whose exchange of a replica has worked out notes it. -/
lemma exec_syncWith_of_exchange (hx : exec (exchange seat p (.replica r)) c = (.ok report, c₁))
    (hn : c₁.nodes.get? seat = some n) :
    ∃ c' n', exec (syncWith seat p (.replica r) s) c = (.ok (if report.result.isUpdated then
        { s.record report with updated := s.updated ++ [r] } else s.record report), c') ∧
      Apart seat c₁ c' ∧ c'.nodes.get? seat = some n' ∧ n.Noting n' := by
  obtain ⟨c₂, n₂, hsuccess, hapart, hn₂, hnoting⟩ := exec_reportSuccess hn p
  let n' : Node := n₂.noteProgress r p.id report.peerTimestamp
  have hnoted : n₂.Noting n' := ⟨rfl, fun _ _ => id, fun _ => id⟩
  have hnote : exec (modify fun n : Node => n.noteProgress r p.id report.peerTimestamp) n₂ =
      (.ok (), n') := rfl
  obtain ⟨c', hprogress, hapart', hn'⟩ := exec_act_apart hn₂ hnote
  refine ⟨c', n', ?_, trans_of (Apart seat) hapart hapart', hn', trans_of Node.Noting hnoting hnoted⟩
  have hattempt : exec (Action.attempt (exchange seat p (.replica r))) c =
      (.ok (.ok report), c₁) := by
    rw [exec_attempt, hx]
  rw [syncWith, exec_bind_ok hattempt, exec_bind_ok hsuccess, exec_bind_ok hprogress]
  rfl

lemma exec_syncWith_of_exchangeMetadata {k : MetadataKind}
    (hx : exec (exchange seat p (.metadata k)) c = (.ok report, c₁))
    (hreport : report.result = .unchanged) (hn : c₁.nodes.get? seat = some n) :
    ∃ c' n', exec (syncWith seat p (.metadata k) s) c = (.ok (s.record report), c') ∧
      Apart seat c₁ c' ∧ c'.nodes.get? seat = some n' ∧ n.Noting n' := by
  obtain ⟨c', n', hsuccess, hapart, hn', hnoting⟩ := exec_reportSuccess hn p
  refine ⟨c', n', ?_, hapart, hn', hnoting⟩
  have hattempt : exec (Action.attempt (exchange seat p (.metadata k))) c =
      (.ok (.ok report), c₁) := by
    rw [exec_attempt, hx]
  rw [syncWith, exec_bind_ok hattempt, exec_bind_ok hsuccess, hreport]
  rfl

lemma exec_syncWith_of_serialization {subject : Subject} {detail : String}
    (hx : exec (exchange seat p subject) c = (.error (.serialization detail), c₁)) :
    exec (syncWith seat p subject s) c = (.ok { s with failed := s.failed + 1 }, c₁) := by
  have hattempt : exec (Action.attempt (exchange seat p subject)) c =
      (.ok (.error (.serialization detail)), c₁) := by
    rw [exec_attempt, hx]
  rw [syncWith, exec_bind_ok hattempt]
  rfl

/-! ### Exchanges of a replica -/

lemma sideOf_of_running {S T : Type} (hup : n.stopped = false) (a : S) :
    (sideOf n a : Half S T) = .start a n.config.exchangeBatchSize := by
  simp [sideOf, hup]

/-- Two nodes that host a replica run the exchange between its states there. -/
lemma exec_exchangeReplica {h h' : Hosted} {a : h.type.State} {b : h'.type.State}
    {x : Duplex h.type.State h.type.Timestamp h'.type.State h'.type.Timestamp}
    (hn : c.nodes.get? seat = some n) (hm : c.nodes.get? peer = some m) (hready : n.Ready)
    (hready' : m.Ready) (hh : n.hosted.get? r.instanceId = some h) (ha : h.shard r.shard = .ok a)
    (hh' : m.hosted.get? r.instanceId = some h') (hb : h'.shard r.shard = .ok b)
    (hx : (Duplex.connect (.start a n.config.exchangeBatchSize)
      (.start b m.config.exchangeBatchSize) m.config.exchangeChannelCapacity).run = x)
    (hn₁ : (c.nodes.insert peer (m.setHosted (h'.setShard r.shard x.right.state))).get? seat =
      some n₁) :
    exec (exchangeReplica seat peer r) c = (x.left.outcome,
      { c with
        nodes := (c.nodes.insert peer (m.setHosted (h'.setShard r.shard x.right.state))).insert seat
          (n₁.setHosted (h.setShard r.shard x.left.state)) }) := by
  rw [exchangeReplica, exec_bind_ok (exec_act_of_get? hm (Node.exec_hostedInstance_of_get? hh')),
    exec_bind, exec_liftExcept, hb]
  dsimp only
  rw [exec_bind_ok (exec_act_get hm), exec_bind, exec_liftExcept, hready'.checkCapacity]
  dsimp only
  rw [exec_bind_ok (exec_act_of_get? hn (Node.exec_hostedInstance_of_get? hh)), exec_bind,
    exec_liftExcept, ha]
  dsimp only
  rw [exec_bind_ok (exec_act_get hn), sideOf_of_running hready.up, sideOf_of_running hready'.up, hx]
  let c₁ : Cluster :=
    { c with nodes := c.nodes.insert peer (m.setHosted (h'.setShard r.shard x.right.state)) }
  have hn₁ : c₁.nodes.get? seat = some n₁ := hn₁
  rw [exec_bind_ok (exec_act_modify hm _), exec_bind_ok (exec_act_modify hn₁ _), exec_liftExcept]

lemma exec_exchangeReplica_of_kept {t : CrdtType} {a b : t.State}
    {x : Duplex t.State t.Timestamp t.State t.Timestamp} (hn : c.nodes.get? seat = some n)
    (hm : c.nodes.get? peer = some m) (hready : n.Ready) (hready' : m.Ready) (hnamed : n.Named)
    (hnamed' : m.Named) (ha : n.Holds r (Is a)) (hb : m.Holds r (Is b))
    (hx : (Duplex.connect (.start a n.config.exchangeBatchSize)
      (.start b m.config.exchangeBatchSize) m.config.exchangeChannelCapacity).run = x)
    (hleft : x.left.state = a) (hright : x.right.state = b) :
    exec (exchangeReplica seat peer r) c = (x.left.outcome, c) := by
  obtain ⟨id, count, shards, hh, hs⟩ := ha.exists_hosted
  obtain ⟨id', count', shards', hh', hs'⟩ := hb.exists_hosted
  have hkept : n.setHosted ((⟨id, t, count, shards⟩ : Hosted).setShard r.shard x.left.state) =
      n := by
    obtain rfl : id = r.instanceId := hnamed _ _ hh
    rw [hleft]
    exact Node.setHosted_setShard_of_shard hh hs
  have hkept' : m.setHosted ((⟨id', t, count', shards'⟩ : Hosted).setShard r.shard
      x.right.state) = m := by
    obtain rfl : id' = r.instanceId := hnamed' _ _ hh'
    rw [hright]
    exact Node.setHosted_setShard_of_shard hh' hs'
  have hn₁ : (c.nodes.insert peer (m.setHosted ((⟨id', t, count', shards'⟩ : Hosted).setShard
      r.shard x.right.state))).get? seat = some n := by
    rw [hkept', SortedMap.insert_of_get? hm, hn]
  rw [exec_exchangeReplica hn hm hready hready' hh hs hh' hs' hx hn₁, hkept', hkept,
    SortedMap.insert_of_get? hm, SortedMap.insert_of_get? hn]

/-- Two nodes that cannot read with what timestamp the other one opens change nothing. -/
lemma exec_exchangeReplica_of_undecodable {t : CrdtType} {a b : t.State} {e e' : ClusterError}
    (hn : c.nodes.get? seat = some n) (hm : c.nodes.get? peer = some m) (hready : n.Ready)
    (hready' : m.Ready) (hnamed : n.Named) (hnamed' : m.Named) (ha : n.Holds r (Is a))
    (hb : m.Holds r (Is b))
    (hda : (Wire.decode (Encoded.timestampOf a) : Except ClusterError t.Timestamp) = .error e)
    (hdb : (Wire.decode (Encoded.timestampOf b) : Except ClusterError t.Timestamp) = .error e') :
    exec (exchangeReplica seat peer r) c = (.error e', c) :=
  exec_exchangeReplica_of_kept hn hm hready hready' hnamed hnamed' ha hb
    (run_of_undecodable m.config.exchangeChannelCapacity hda hdb) rfl rfl

/-! ### Exchanges of a table -/

/-- Two nodes run the exchange between their tables, and the one that was called minds the news. -/
lemma exec_exchangeMetadata {k : MetadataKind} {news : Bool}
    {x : Duplex (Metadata.Table k) (Metadata.TableTimestamp k) (Metadata.Table k)
      (Metadata.TableTimestamp k)}
    (hn : c.nodes.get? seat = some n) (hm : c.nodes.get? peer = some m)
    (hcheck : checkCapacity m.config.exchangeChannelCapacity = .ok ())
    (hx : (Duplex.connect (sideOf n (n.metadata.table k)) (sideOf m (m.metadata.table k))
      m.config.exchangeChannelCapacity).run = x)
    (hnews : (x.right.outcome.toOption.any fun r => r.result.isUpdated) = news)
    (hn₁ : (c.nodes.insert peer (m.withTable k x.right.state news)).get? seat = some n₁) :
    exec (exchangeMetadata seat peer k) c = (x.left.outcome,
      { c with
        nodes := (c.nodes.insert peer (m.withTable k x.right.state news)).insert seat
          (n₁.withTable k x.left.state false) }) := by
  have hlisten : exec (do
      modify fun n : Node => { n with metadata := n.metadata.setTable k x.right.state }
      if news then modify fun n => n.refreshTopology.1) m =
        (.ok (), m.withTable k x.right.state news) := by
    cases news <;> rfl
  rw [exchangeMetadata, exec_bind_ok (exec_act_get hn), exec_bind_ok (exec_act_get hm), exec_bind,
    exec_liftExcept, hcheck]
  dsimp only
  rw [hx, hnews, exec_bind, exec_act hm, hlisten]
  let c₁ : Cluster := { c with nodes := c.nodes.insert peer (m.withTable k x.right.state news) }
  have hn₁ : c₁.nodes.get? seat = some n₁ := hn₁
  dsimp only
  rw [exec_bind_ok (exec_act_modify hn₁ _), exec_liftExcept]
  rfl

/-! ### Who can be reached -/

/-- A node that takes part in exchanges, and that others reach at its address. -/
structure Online (c : Cluster) (seat : Seat) (n : Node) : Prop where
  node : c.nodes.get? seat = some n
  served : c.services.get? n.info.address = some seat
  reachable : c.isReachable n.info.address = true
  ready : n.Ready

lemma Online.of_get? (hn : c.Online seat n) (hget : c'.nodes.get? seat = some n')
    (hinfo : n'.info = n.info) (hready : n'.Ready) (hservices : c'.services = c.services)
    (hcut : c'.cut = c.cut) : c'.Online seat n' where
  node := hget
  served := by
    rw [hinfo, hservices]
    exact hn.served
  reachable := by
    rw [hinfo, isReachable, hcut]
    exact hn.reachable
  ready := hready

/-- An exchange with a node that is reached is counted as a call, and run. -/
lemma exec_exchange (hn : c.Online seat n) (hm : c.Online peer m) (subject : Subject) :
    exec (exchange seat m.info subject) c =
      exec (match subject with
        | .replica r => exchangeReplica seat peer r
        | .metadata k => exchangeMetadata seat peer k)
        { c with calls := c.calls.alter m.info.address fun n => n.getD 0 + 1 } := by
  have hactive : (OperationContext.forSync "" n.stopped).cancelled = false := hn.ready.up
  have hconnect := exec_connect_of_reachable hactive hn.reachable hm.reachable hm.served
  rw [exchange, exec_bind_ok (exec_act_get hn.node)]
  refine (exec_bind_ok hconnect).trans ?_
  cases subject <;> rfl

/-- Two nodes that store states of one replica store what the exchange makes of them. -/
lemma exec_exchange_of_holds {t : CrdtType} {a b : t.State}
    {x : Duplex t.State t.Timestamp t.State t.Timestamp} (hn : c.Online seat n)
    (hm : c.Online peer m) (hne : seat ≠ peer) (hnamed : n.Named) (hnamed' : m.Named)
    (ha : n.Holds r (Is a)) (hb : m.Holds r (Is b))
    (hx : (Duplex.connect (.start a n.config.exchangeBatchSize)
      (.start b m.config.exchangeBatchSize) m.config.exchangeChannelCapacity).run = x) :
    ∃ h h', (n.setHosted h).Holds r (Is x.left.state) ∧
      (m.setHosted h').Holds r (Is x.right.state) ∧
      exec (exchange seat m.info (.replica r)) c = (x.left.outcome,
        { c with
          nodes := (c.nodes.insert peer (m.setHosted h')).insert seat (n.setHosted h)
          calls := c.calls.alter m.info.address fun n => n.getD 0 + 1 }) := by
  obtain ⟨id, count, shards, hh, hs⟩ := ha.exists_hosted
  obtain ⟨id', count', shards', hh', hs'⟩ := hb.exists_hosted
  refine ⟨_, _, Node.holds_setShard (hnamed _ _ hh) hs .intro,
    Node.holds_setShard (hnamed' _ _ hh') hs' .intro, ?_⟩
  let c₀ : Cluster := { c with calls := c.calls.alter m.info.address fun n => n.getD 0 + 1 }
  have hseat (m' : Node) : (c.nodes.insert peer m').get? seat = some n :=
    (SortedMap.get?_insert_of_ne hne).trans hn.node
  rw [exec_exchange hn hm]
  exact exec_exchangeReplica (c := c₀) hn.node hm.node hn.ready hm.ready hh hs hh' hs' hx (hseat _)

/-! ### A replica's part of a round -/

def partner? (n : Node) (timer : Nat) (r : ReplicaId) : Option NodeInfo :=
  n.resumePeer timer r (n.distributor.readReplicas r) <|>
    n.pickPeer timer (n.distributor.readReplicas r)

/-- After the exchange, if there is a partner, the node sees whether the replica has caught up. -/
lemma exec_syncReplica (hn : c.nodes.get? seat = some n) {s' : RoundSummary}
    (hsync : exec ((partner? n c.timer r).elim (pure s) fun p => syncWith seat p (.replica r) s) c =
      (.ok s', c₁))
    (hn₁ : c₁.nodes.get? seat = some n₁) (hh : (n₁.hosted.get? r.instanceId).isSome) :
    ∃ resumed c' n', exec (syncReplica seat s r) c =
        (.ok { s' with resumed := s'.resumed ++ resumed }, c') ∧
      Apart seat c₁ c' ∧ c'.nodes.get? seat = some n' ∧ n₁.Noting n' := by
  obtain ⟨c', hfinish, hapart, hn'⟩ := exec_act_apart (a := liftM (Node.finishResume r)) hn₁
    (exec_liftState (Node.finishResume r))
  refine ⟨if ((Node.finishResume r).run n₁).1 then [r] else [], c', _, ?_, hapart, hn',
    Node.noting_finishResume r hh⟩
  rw [syncReplica, exec_bind_ok (exec_act_get hn), exec_bind_ok exec_get]
  dsimp only
  rw [← partner?]
  have hrest : ∀ a : Action Cluster RoundSummary, exec a c = (.ok s', c₁) →
      exec (a >>= fun s => do
        let resumed ← act seat (liftM (Node.finishResume r))
        return if resumed then { s with resumed := s.resumed ++ [r] } else s) c =
      (.ok { s' with
        resumed := s'.resumed ++ if ((Node.finishResume r).run n₁).1 then [r] else [] }, c') := by
    intro a ha
    rw [exec_bind_ok ha, exec_bind_ok hfinish]
    cases ((Node.finishResume r).run n₁).1
    · simp
    · rfl
  cases hpartner : partner? n c.timer r with
  | some p =>
    rw [hpartner] at hsync
    exact hrest _ hsync
  | none =>
    rw [hpartner] at hsync
    exact hrest _ hsync

end Cluster

end DeltaRing
