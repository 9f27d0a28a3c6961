import DeltaRing.Proofs.Cluster.RingRounds
import DeltaRing.Proofs.Node.Settled
import DeltaRing.Proofs.Node.Sizes
import DeltaRing.Proofs.Replication.Grounding
import DeltaRing.Proofs.Placement.Selection
import DeltaRing.Proofs.Wire.Timestamps
import Mathlib.Control.Lawful

/-!
A quiescent cluster stays quiescent.

Where all nodes keep the same metadata and have taken them to placement, all readers of a replica
store the same state of it, and the sizes on record are the ones that the nodes report, there is
nothing to exchange, to plan or to record. A round of any node finds that out, and what it leaves
behind is noted progress and counted calls. So any number of rounds leaves the cluster as quiescent
as it was, whenever the nodes take them and in whatever order.
-/

namespace DeltaRing

open DeltaRing.Action Exchange LawfulWire

/-! ### Replicas in one state -/

section

variable {S D T O R K : Type} [CausalTimestamp T D] [DeltaCrdt S D T] [Operable S D O R K] [Wire T]
  [LawfulWire T] {s : S}

/-- A state that deltas and operations lead to, with numbers that fit their words. -/
structure Legible (s : S) : Prop where
  arisen : Arisen s
  fits : Fits (timestamp s)

/-- Two replicas in one state have nothing to send to each other, if they can read its timestamp. -/
lemma Legible.level [Wire D] [Authored D] [Summary S D] [Listing S] [Grounding S]
    [GroundingByOperations S] (h : Legible s)
    (hnesting : (toJson (timestamp s)).nesting ≤ Json.Reader.maxOpen) : Level s s where
  there := h.arisen.deltasSince_timestamp
  back := h.arisen.deltasSince_timestamp
  greeting := Travels.decode_encode ⟨h.fits, hnesting⟩
  greeting' := Travels.decode_encode ⟨h.fits, hnesting⟩

end

structure Metadata.Legible (m : Metadata) : Prop where
  membership : DeltaRing.Legible m.membership
  instances : DeltaRing.Legible m.instances
  sizes : DeltaRing.Legible m.sizes

lemma Metadata.Legible.level {m : Metadata} (h : m.Legible) :
    (k : MetadataKind) → Level (m.table k) (m.table k)
  | .membership => h.membership.level ((nesting_le_depth h.membership.fits).trans (by decide))
  | .instances => h.instances.level ((nesting_le_depth h.instances.fits).trans (by decide))
  | .replicaSizes => h.sizes.level ((nesting_le_depth h.sizes.fits).trans (by decide))

structure RoundSummary.Idle (s : RoundSummary) : Prop where
  sent : s.sent = 0
  received : s.received = 0
  failed : s.failed = 0
  updated : s.updated = []

lemma RoundSummary.Idle.record {s : RoundSummary} {report : Report} (h : s.Idle)
    (hsent : report.sent = 0) (hreceived : report.received = 0) : (s.record report).Idle :=
  ⟨by simp [RoundSummary.record, h.sent, hsent], by simp [RoundSummary.record, h.received, hreceived],
    h.failed, h.updated⟩

namespace Cluster

variable {c c' c₁ : Cluster} {seat peer : Seat} {n n' p : Node} {r : ReplicaId} {m : Metadata}
  {s : RoundSummary}

/-! ### Exchanges of nothing -/

lemma exec_exchangeMetadata_of_level {k : MetadataKind} (hn : c.nodes.get? seat = some n)
    (hp : c.nodes.get? peer = some p) (hready : n.Ready) (hready' : p.Ready)
    (hl : Level (n.metadata.table k) (p.metadata.table k)) :
    exec (exchangeMetadata seat peer k) c =
      (.ok ⟨0, 0, .unchanged, Encoded.timestampOf (p.metadata.table k)⟩, c) := by
  obtain ⟨hleft, hright, hstate, hstate'⟩ :=
    hl.run p.config.exchangeChannelCapacity hready.batches hready'.batches
  rw [← sideOf_of_running hready.up, ← sideOf_of_running hready'.up] at hleft hright hstate hstate'
  generalize hx : (Duplex.connect (sideOf n (n.metadata.table k)) (sideOf p (p.metadata.table k))
    p.config.exchangeChannelCapacity).run = x at hleft hright hstate hstate'
  have hnews : (x.right.outcome.toOption.any fun r => r.result.isUpdated) = false := by
    rw [hright]
    rfl
  have hp₁ : c.nodes.insert peer (p.withTable k x.right.state false) = c.nodes := by
    rw [hstate', Node.withTable_table, SortedMap.insert_of_get? hp]
  rw [exec_exchangeMetadata hn hp hready'.checkCapacity hx hnews (hp₁ ▸ hn), hp₁, hleft, hstate,
    Node.withTable_table, SortedMap.insert_of_get? hn]

lemma exec_exchangeReplica_of_level {t : CrdtType} {a : t.State} (hn : c.nodes.get? seat = some n)
    (hp : c.nodes.get? peer = some p) (hready : n.Ready) (hready' : p.Ready) (hnamed : n.Named)
    (hnamed' : p.Named) (ha : n.Holds r (Is a)) (ha' : p.Holds r (Is a)) (hl : Level a a) :
    exec (exchangeReplica seat peer r) c = (.ok ⟨0, 0, .unchanged, Encoded.timestampOf a⟩, c) := by
  obtain ⟨hleft, -, hstate, hstate'⟩ :=
    hl.run p.config.exchangeChannelCapacity hready.batches hready'.batches
  rw [exec_exchangeReplica_of_kept hn hp hready hready' hnamed hnamed' ha ha' rfl hstate hstate',
    hleft]

/-! ### Steady clusters -/

/-- The nodes are the same up to what they have noted of exchanges, and so is who can be reached. -/
structure Steady (c c' : Cluster) : Prop where
  nodes : ∀ k n, c.nodes.get? k = some n → ∃ n', c'.nodes.get? k = some n' ∧ n.Noting n'
  origin : ∀ k n', c'.nodes.get? k = some n' → ∃ n, c.nodes.get? k = some n ∧ n.Noting n'
  services : c'.services = c.services
  cut : c'.cut = c.cut

instance : IsPreorder Cluster Steady where
  refl c := ⟨fun _ n hn => ⟨n, hn, refl_of Node.Noting n⟩,
    fun _ n hn => ⟨n, hn, refl_of Node.Noting n⟩, rfl, rfl⟩
  trans c₁ c₂ c₃ h h' := by
    refine ⟨fun k n hn => ?_, fun k n hn => ?_, h'.services.trans h.services, h'.cut.trans h.cut⟩
    · obtain ⟨n₂, hn₂, hnoting⟩ := h.nodes k n hn
      obtain ⟨n₃, hn₃, hnoting'⟩ := h'.nodes k n₂ hn₂
      exact ⟨n₃, hn₃, trans_of Node.Noting hnoting hnoting'⟩
    · obtain ⟨n₂, hn₂, hnoting'⟩ := h'.origin k n hn
      obtain ⟨n₁, hn₁, hnoting⟩ := h.origin k n₂ hn₂
      exact ⟨n₁, hn₁, trans_of Node.Noting hnoting hnoting'⟩

lemma Apart.steady (h : Apart seat c c') (hn : c.nodes.get? seat = some n)
    (hn' : c'.nodes.get? seat = some n') (hnoting : n.Noting n') : Steady c c' := by
  refine ⟨fun k m hm => ?_, fun k m hm => ?_, h.services, h.cut⟩
  · by_cases hk : k = seat
    · subst hk
      rw [hn, Option.some.injEq] at hm
      exact ⟨n', hn', hm ▸ hnoting⟩
    · exact ⟨m, (h.others k hk).trans hm, refl_of Node.Noting m⟩
  · by_cases hk : k = seat
    · subst hk
      rw [hn', Option.some.injEq] at hm
      exact ⟨n, hn, hm ▸ hnoting⟩
    · exact ⟨m, (h.others k hk).symm.trans hm, refl_of Node.Noting m⟩

/-! ### Quiescent clusters -/

end Cluster

lemma Node.mem_of_resumePeer {n : Node} {timer : Nat} {r : ReplicaId} {readers : List NodeInfo}
    {q : NodeInfo} (h : n.resumePeer timer r readers = some q) : q ∈ readers := by
  rw [resumePeer] at h
  obtain ⟨checkpoint, -, hq⟩ := Option.bind_eq_some_iff.mp h
  exact List.mem_of_find?_eq_some hq

/-- A node with these tables, which it has taken to placement, and with its sizes on record. Its
strategy picks candidates, or the node itself. -/
structure Node.AtRest (n : Node) (m : Metadata) : Prop where
  valid : n.config.validate = .ok ()
  named : n.Named
  chooses : ∀ cs, ∀ p ∈ n.antiEntropy n.info cs, p ∈ cs ∨ p = n.info
  tables : ∀ k, n.metadata.table k = m.table k
  settled : n.Settled
  reported : ∀ e ∈ n.sizeReports, m.sizes.get? e.1 = some e.2

namespace Node.AtRest

variable {n n' : Node} {m : Metadata}

lemma noting (h : n.AtRest m) (hn : n.Noting n') : n'.AtRest m := by
  rw [hn.rest]
  exact ⟨h.valid, h.named, h.chooses, h.tables, ⟨h.settled.hosts, h.settled.planned⟩, h.reported⟩

lemma members (h : n.AtRest m) : n.metadata.members = m.members :=
  congrArg OrSet.items (h.tables .membership)

lemma refreshTopology (h : n.AtRest m) : n.refreshTopology = (n, false) :=
  h.settled.refreshTopology h.valid

lemma recordSizes (h : n.AtRest m) (clock : Int) : n.recordSizes clock = .ok (n, none) :=
  Node.recordSizes_of_recorded fun e he => by
    rw [show n.metadata.sizes = m.sizes from h.tables .replicaSizes]
    exact h.reported e he

end Node.AtRest

namespace Cluster

/-- All nodes are online, keep the tables `m` and are at rest, every member is one of them, and all
readers of a replica store the same state of it. -/
structure Quiescent (c : Cluster) (m : Metadata) : Prop where
  legible : m.Legible
  online : ∀ k n, c.nodes.get? k = some n → c.Online k n
  atRest : ∀ k n, c.nodes.get? k = some n → n.AtRest m
  members : ∀ p ∈ m.members, ∃ k n, c.nodes.get? k = some n ∧ n.info = p
  replicas : ∀ r, ∃ (t : CrdtType) (a : t.State), Legible a ∧ ∀ k n, c.nodes.get? k = some n →
    ∀ w ∈ n.distributor.readReplicas r, ∀ k' n', c.nodes.get? k' = some n' → n'.info.id = w.id →
      n'.Holds r (Is a)

/-- Nothing that a node holds a copy of has a timestamp that is nested too deep to be read. -/
def Shallow (c : Cluster) : Prop :=
  ∀ k n, c.nodes.get? k = some n → ∀ r ∈ n.distributor.heldBy n.info.id,
    n.Holds r fun _ s => (toJson (timestamp s)).nesting ≤ Json.Reader.maxOpen

lemma Shallow.steady {c c' : Cluster} (hc : c.Shallow) (h : Steady c c') : c'.Shallow := by
  intro k n' hn' r hr
  obtain ⟨n, hn, hnoting⟩ := h.origin k n' hn'
  refine hnoting.holds (hc k n hn r ?_)
  rw [hnoting.rest] at hr
  exact hr

namespace Quiescent

variable {c c' c₀ : Cluster} {seat peer : Seat} {n n' p : Node} {r : ReplicaId} {m : Metadata}
  {s : RoundSummary}

lemma steady (hc : c.Quiescent m) (h : Steady c c') : c'.Quiescent m where
  legible := hc.legible
  online k n' hn' := by
    obtain ⟨n, hn, hnoting⟩ := h.origin k n' hn'
    have hready := hnoting.ready (hc.online k n hn).ready
    exact (hc.online k n hn).of_get? hn' hnoting.info hready h.services h.cut
  atRest k n' hn' := by
    obtain ⟨n, hn, hnoting⟩ := h.origin k n' hn'
    exact (hc.atRest k n hn).noting hnoting
  members q hq := by
    obtain ⟨k, n, hn, hinfo⟩ := hc.members q hq
    obtain ⟨n', hn', hnoting⟩ := h.nodes k n hn
    exact ⟨k, n', hn', hnoting.info.trans hinfo⟩
  replicas r := by
    obtain ⟨t, a, ha, hall⟩ := hc.replicas r
    refine ⟨t, a, ha, fun k n' hn' w hw k' p' hp' hid => ?_⟩
    obtain ⟨n, hn, hnoting⟩ := h.origin k n' hn'
    obtain ⟨p, hp, hnoting'⟩ := h.origin k' p' hp'
    have hplan : n'.distributor = n.distributor := by rw [hnoting.rest]
    rw [hplan] at hw
    rw [hnoting'.info] at hid
    exact hnoting'.holds (hall k n hn w hw k' p hp hid)

lemma syncWith_metadata (hc : c.Quiescent m) (hn : c.nodes.get? seat = some n)
    (hp : c.nodes.get? peer = some p) (hs : s.Idle) (k : MetadataKind) :
    ∃ s' c', exec (syncWith seat p.info (.metadata k) s) c = (.ok s', c') ∧ s'.Idle ∧
      Steady c c' := by
  have hon := hc.online seat n hn
  have hon' := hc.online peer p hp
  have hl : Level (n.metadata.table k) (p.metadata.table k) := by
    rw [(hc.atRest seat n hn).tables k, (hc.atRest peer p hp).tables k]
    exact hc.legible.level k
  let c₁ : Cluster := { c with calls := c.calls.alter p.info.address fun n => n.getD 0 + 1 }
  have hx := (exec_exchange hon hon' (.metadata k)).trans
    (exec_exchangeMetadata_of_level (c := c₁) hn hp hon.ready hon'.ready hl)
  have hn₁ : c₁.nodes.get? seat = some n := hn
  obtain ⟨c', n', hexec, hapart, hn', hnoting⟩ :=
    exec_syncWith_of_exchangeMetadata (s := s) hx rfl hn₁
  have hcounted : Steady c c₁ := ⟨(refl_of Steady c).nodes, (refl_of Steady c).origin, rfl, rfl⟩
  exact ⟨_, c', hexec, hs.record rfl rfl,
    trans_of Steady hcounted (hapart.steady hn₁ hn' hnoting)⟩

lemma syncWith_replica (hc : c.Quiescent m) (hn : c.nodes.get? seat = some n)
    (hp : c.nodes.get? peer = some p) (hs : s.Idle) {t : CrdtType} {a : t.State} (hl : Level a a)
    (hholds : n.Holds r (Is a)) (hholds' : p.Holds r (Is a)) :
    ∃ s' c', exec (syncWith seat p.info (.replica r) s) c = (.ok s', c') ∧ s'.Idle ∧
      Steady c c' := by
  have hon := hc.online seat n hn
  have hon' := hc.online peer p hp
  let c₁ : Cluster := { c with calls := c.calls.alter p.info.address fun n => n.getD 0 + 1 }
  have hx := (exec_exchange hon hon' (.replica r)).trans
    (exec_exchangeReplica_of_level (c := c₁) hn hp hon.ready hon'.ready (hc.atRest seat n hn).named
      (hc.atRest peer p hp).named hholds hholds' hl)
  have hn₁ : c₁.nodes.get? seat = some n := hn
  obtain ⟨c', n', hexec, hapart, hn', hnoting⟩ := exec_syncWith_of_exchange (s := s) hx hn₁
  have hcounted : Steady c c₁ := ⟨(refl_of Steady c).nodes, (refl_of Steady c).origin, rfl, rfl⟩
  exact ⟨_, c', hexec, hs.record rfl rfl,
    trans_of Steady hcounted (hapart.steady hn₁ hn' hnoting)⟩

/-- Whoever the strategy picks among members is a node of the cluster. -/
lemma exists_of_pickPeer (hc : c.Quiescent m) (hn : c.nodes.get? seat = some n) {cs : List NodeInfo}
    (hcs : ∀ q ∈ cs, q ∈ m.members) {timer : Nat} {q : NodeInfo}
    (hq : n.pickPeer timer cs = some q) :
    ∃ peer p, c.nodes.get? peer = some p ∧ p.info = q ∧ (q ∈ cs ∨ q = n.info) := by
  rcases (hc.atRest seat n hn).chooses _ q (List.mem_of_head? hq) with hcand | rfl
  · have hmem : q ∈ cs := List.mem_of_mem_filter hcand
    obtain ⟨peer, p, hp, hinfo⟩ := hc.members q (hcs q hmem)
    exact ⟨peer, p, hp, hinfo, .inl hmem⟩
  · exact ⟨seat, n, hn, rfl, .inr rfl⟩

lemma syncReplica (hc : c.Quiescent m) (hshallow : c.Shallow) (hn : c.nodes.get? seat = some n)
    (hs : s.Idle) (hr : r ∈ n.distributor.heldBy n.info.id) :
    ∃ s' c', exec (syncReplica seat s r) c = (.ok s', c') ∧ s'.Idle ∧ Steady c c' := by
  obtain ⟨t, a, ha, hall⟩ := hc.replicas r
  have hrest := hc.atRest seat n hn
  -- the node reads the replica itself
  obtain ⟨w, hw, hid⟩ := List.any_eq_true.mp (List.mem_filter.mp hr).2
  have hholds := hall seat n hn w hw seat n hn (of_decide_eq_true hid).symm
  have hpartner : ∀ q, partner? n c.timer r = some q →
      ∃ peer p, c.nodes.get? peer = some p ∧ p.info = q ∧ p.Holds r (Is a) := by
    intro q hq
    have hreader : ∀ q ∈ n.distributor.readReplicas r, q ∈ m.members := fun q hq =>
      hrest.members ▸ hrest.settled.mem_members hq
    rw [partner?] at hq
    cases hresume : n.resumePeer c.timer r (n.distributor.readReplicas r) with
    | some q' =>
      rw [hresume] at hq
      obtain rfl : q' = q := Option.some.inj hq
      have hmem := Node.mem_of_resumePeer hresume
      obtain ⟨peer, p, hp, hinfo⟩ := hc.members q' (hreader q' hmem)
      exact ⟨peer, p, hp, hinfo, hall seat n hn q' hmem peer p hp (hinfo ▸ rfl)⟩
    | none =>
      rw [hresume] at hq
      obtain ⟨peer, p, hp, hinfo, hcand | rfl⟩ := hc.exists_of_pickPeer hn hreader hq
      · exact ⟨peer, p, hp, hinfo, hall seat n hn q hcand peer p hp (hinfo ▸ rfl)⟩
      · exact ⟨seat, n, hn, rfl, hholds⟩
  obtain ⟨s₁, c₁, hsync, hidle, hsteady⟩ : ∃ s₁ c₁, exec ((partner? n c.timer r).elim (pure s)
      fun q => syncWith seat q (.replica r) s) c = (.ok s₁, c₁) ∧ s₁.Idle ∧ Steady c c₁ := by
    cases hq : partner? n c.timer r with
    | none => exact ⟨s, c, rfl, hs, refl_of Steady c⟩
    | some q =>
      obtain ⟨peer, p, hp, rfl, hholds'⟩ := hpartner q hq
      have hl := ha.level (hholds.of_is (hshallow seat n hn r hr))
      exact hc.syncWith_replica hn hp hs hl hholds hholds'
  obtain ⟨n₁, hn₁, hnoting⟩ := hsteady.nodes seat n hn
  obtain ⟨resumed, c', n', hexec, hapart, hn', hnoting'⟩ := exec_syncReplica hn hsync hn₁ (by
    obtain ⟨h, _, hh, -⟩ := hnoting.holds hholds
    rw [hh, Option.isSome_some])
  exact ⟨_, c', hexec, ⟨hidle.sent, hidle.received, hidle.failed, hidle.updated⟩,
    trans_of Steady hsteady (hapart.steady hn₁ hn' hnoting')⟩

lemma publishSizes (hc : c.Quiescent m) (hn : c.nodes.get? seat = some n) :
    exec (publishSizes seat) c = (.ok (), c) := by
  have hnothing {a : Action Node (Option Payload)} {f : Option Payload → Action Cluster Unit}
      (ha : exec a n = (.ok none, n)) : exec (act seat a >>= f) c = exec (f none) c :=
    exec_bind_ok (exec_act_of_get? hn ha)
  rw [Cluster.publishSizes, exec_bind_ok exec_get, hnothing]
  · rfl
  · rw [exec_bind_ok exec_get, (hc.atRest seat n hn).recordSizes c.clock]
    rfl

lemma idle_foldlM {α : Type} {f : RoundSummary → α → Action Cluster RoundSummary} {l : List α}
    (c₀ : Cluster) (hf : ∀ x ∈ l, ∀ {s c}, Steady c₀ c → s.Idle →
      ∃ s' c', exec (f s x) c = (.ok s', c') ∧ s'.Idle ∧ Steady c c')
    (hc : Steady c₀ c) (hs : s.Idle) :
    ∃ s' c', exec (l.foldlM f s) c = (.ok s', c') ∧ s'.Idle ∧ Steady c c' := by
  induction l generalizing s c with
  | nil => exact ⟨s, c, rfl, hs, refl_of Steady c⟩
  | cons x l ih =>
    obtain ⟨hx, hl⟩ := List.forall_mem_cons.mp hf
    obtain ⟨s₁, c₁, hexec, hs₁, hsteady⟩ := hx hc hs
    obtain ⟨s', c', hexec', hs', hsteady'⟩ := ih hl (trans_of Steady hc hsteady) hs₁
    refine ⟨s', c', ?_, hs', trans_of Steady hsteady hsteady'⟩
    rw [List.foldlM_cons, exec_bind_ok hexec, hexec']

/-- The first half of a round is idle: the tables are exchanged with a peer, if there is any. -/
lemma syncTables (hc : c.Quiescent m) (hn : c.nodes.get? seat = some n) :
    ∃ s c', exec ((n.pickPeer c.timer n.metadata.members).elim (pure .empty) fun q =>
        MetadataKind.all.foldlM (fun s k => syncWith seat q (.metadata k) s) .empty) c =
      (.ok s, c') ∧ s.Idle ∧ Steady c c' := by
  have hrest := hc.atRest seat n hn
  cases hq : n.pickPeer c.timer n.metadata.members with
  | none => exact ⟨_, c, rfl, ⟨rfl, rfl, rfl, rfl⟩, refl_of Steady c⟩
  | some q =>
    obtain ⟨peer, p, hp, rfl, -⟩ := hc.exists_of_pickPeer hn (fun q hq => hrest.members ▸ hq) hq
    refine idle_foldlM c (fun k _ {s c₁} hsteady hs => ?_) (refl_of Steady c) ⟨rfl, rfl, rfl, rfl⟩
    obtain ⟨n₁, hn₁, -⟩ := hsteady.nodes seat n hn
    obtain ⟨p₁, hp₁, hnoting⟩ := hsteady.nodes peer p hp
    rw [← hnoting.info]
    exact (hc.steady hsteady).syncWith_metadata hn₁ hp₁ hs k

/-- And so is the second half: the replicas that the node holds are exchanged. -/
lemma syncReplicas (hc : c.Quiescent m) (hshallow : c.Shallow) (hn : c.nodes.get? seat = some n)
    (hs : s.Idle) :
    ∃ s' c', exec ((n.distributor.heldBy n.info.id).foldlM (Cluster.syncReplica seat) s) c =
      (.ok s', c') ∧ s'.Idle ∧ Steady c c' := by
  refine idle_foldlM c (fun r hr {s c₁} hsteady hs => ?_) (refl_of Steady c) hs
  obtain ⟨n₁, hn₁, hnoting⟩ := hsteady.nodes seat n hn
  refine (hc.steady hsteady).syncReplica (hshallow.steady hsteady) hn₁ hs ?_
  rw [hnoting.rest]
  exact hr

/-- What a round does before it comes to the replicas is idle. -/
lemma exec_syncRound (hc : c.Quiescent m) (hn : c.nodes.get? seat = some n) :
    ∃ s c₁, s.Idle ∧ Steady c c₁ ∧ exec (syncRound seat) c =
      exec ((n.distributor.heldBy n.info.id).foldlM (Cluster.syncReplica seat) s) c₁ := by
  obtain ⟨s₁, c₁, htables, hs₁, hsteady⟩ := hc.syncTables hn
  obtain ⟨n₁, hn₁, hnoting⟩ := hsteady.nodes seat n hn
  have hc₁ := hc.steady hsteady
  have hrefresh : exec (modify fun n : Node => n.refreshTopology.1) n₁ = (.ok (), n₁) := by
    rw [exec_modify, (hc₁.atRest seat n₁ hn₁).refreshTopology]
  have hsame : n₁.distributor.heldBy n₁.info.id = n.distributor.heldBy n.info.id := by
    rw [hnoting.rest]
  refine ⟨s₁, c₁, hs₁, hsteady, ?_⟩
  have hrest : ∀ a : Action Cluster RoundSummary, exec a c = (.ok s₁, c₁) →
      exec (a >>= fun s => do
        act seat (modify fun n => n.refreshTopology.1)
        Cluster.publishSizes seat
        let n ← act seat get
        (n.distributor.heldBy n.info.id).foldlM (Cluster.syncReplica seat) s) c =
      exec ((n.distributor.heldBy n.info.id).foldlM (Cluster.syncReplica seat) s₁) c₁ := by
    intro a ha
    rw [exec_bind_ok ha, exec_bind_ok (exec_act_of_get? hn₁ hrefresh),
      exec_bind_ok (hc₁.publishSizes hn₁), exec_bind_ok (exec_act_get hn₁), hsame]
  rw [Cluster.syncRound, exec_bind_ok (exec_act_get hn), exec_bind_ok exec_get]
  cases hq : n.pickPeer c.timer n.metadata.members with
  | some q =>
    rw [hq] at htables
    exact hrest _ htables
  | none =>
    rw [hq] at htables
    exact hrest _ htables

lemma syncRound (hc : c.Quiescent m) (hshallow : c.Shallow) (hn : c.nodes.get? seat = some n) :
    ∃ s c', exec (syncRound seat) c = (.ok s, c') ∧ s.Idle ∧ Steady c c' := by
  obtain ⟨s₁, c₁, hs₁, hsteady, hround⟩ := hc.exec_syncRound hn
  obtain ⟨n₁, hn₁, hnoting⟩ := hsteady.nodes seat n hn
  obtain ⟨s', c', hreplicas, hs', hsteady'⟩ :=
    (hc.steady hsteady).syncReplicas (hshallow.steady hsteady) hn₁ hs₁
  refine ⟨s', c', ?_, hs', trans_of Steady hsteady hsteady'⟩
  rw [hround, ← hreplicas, hnoting.rest]

end Quiescent

/-! ### Runs of rounds -/

structure RoundAt where
  seat : Seat
  clock : Int
  timer : Nat

def RoundAt.run (x : RoundAt) : Action Cluster RoundSummary := do
  modify fun c => { c with clock := x.clock, timer := x.timer }
  Cluster.syncRound x.seat

variable {c c' : Cluster} {m : Metadata} {n : Node}

lemma Quiescent.round (hc : c.Quiescent m) (hshallow : c.Shallow) (x : RoundAt)
    (hn : c.nodes.get? x.seat = some n) :
    ∃ s c', exec x.run c = (.ok s, c') ∧ s.Idle ∧ Steady c c' := by
  let c₁ : Cluster := { c with clock := x.clock, timer := x.timer }
  have hlater : Steady c c₁ := ⟨(refl_of Steady c).nodes, (refl_of Steady c).origin, rfl, rfl⟩
  have hn₁ : c₁.nodes.get? x.seat = some n := hn
  obtain ⟨s, c', hexec, hs, hsteady⟩ := (hc.steady hlater).syncRound (hshallow.steady hlater) hn₁
  refine ⟨s, c', ?_, hs, trans_of Steady hlater hsteady⟩
  rw [RoundAt.run, exec_bind_ok (exec_modify _), hexec]

lemma Quiescent.rounds (hc : c.Quiescent m) (hshallow : c.Shallow) {xs : List RoundAt}
    (hxs : ∀ x ∈ xs, (c.nodes.get? x.seat).isSome) :
    ∃ ss c', exec (xs.mapM RoundAt.run) c = (.ok ss, c') ∧ ss.length = xs.length ∧
      (∀ s ∈ ss, s.Idle) ∧ Steady c c' := by
  induction xs generalizing c with
  | nil => exact ⟨[], c, rfl, rfl, by simp, refl_of Steady c⟩
  | cons x xs ih =>
    obtain ⟨hx, hxs⟩ := List.forall_mem_cons.mp hxs
    obtain ⟨n, hn⟩ := Option.isSome_iff_exists.mp hx
    obtain ⟨s, c₁, hexec, hs, hsteady⟩ := hc.round hshallow x hn
    have hpresent : ∀ y ∈ xs, (c₁.nodes.get? y.seat).isSome := fun y hy => by
      obtain ⟨p, hp⟩ := Option.isSome_iff_exists.mp (hxs y hy)
      obtain ⟨p', hp', -⟩ := hsteady.nodes y.seat p hp
      rw [hp', Option.isSome_some]
    obtain ⟨ss, c', hexec', hlength, hss, hsteady'⟩ :=
      ih (hc.steady hsteady) (hshallow.steady hsteady) hpresent
    refine ⟨s :: ss, c', ?_, by simp [hlength], List.forall_mem_cons.mpr ⟨hs, hss⟩,
      trans_of Steady hsteady hsteady'⟩
    rw [List.mapM_cons, exec_bind_ok hexec, exec_bind_ok hexec', exec_pure]

/-- **A quiescent cluster stays quiescent.** Rounds of its nodes, at whatever times and in whatever
order, send nothing, receive nothing, fail in nothing and update nothing. They leave the metadata,
the shards and the placement of every node as they were. What a node holds must not have a timestamp
that is nested too deep to be read. -/
theorem rounds_of_quiescent (hc : c.Quiescent m) (hshallow : c.Shallow) (xs : List RoundAt)
    (hxs : ∀ x ∈ xs, (c.nodes.get? x.seat).isSome) :
    ∃ ss c', exec (xs.mapM RoundAt.run) c = (.ok ss, c') ∧ ss.length = xs.length ∧
      (∀ s ∈ ss, s.sent = 0 ∧ s.received = 0 ∧ s.failed = 0 ∧ s.updated = []) ∧
      c'.Quiescent m ∧ ∀ k n, c.nodes.get? k = some n → ∃ n', c'.nodes.get? k = some n' ∧
        n'.metadata = n.metadata ∧ n'.hosted = n.hosted ∧ n'.distributor = n.distributor := by
  obtain ⟨ss, c', hexec, hlength, hss, hsteady⟩ := hc.rounds hshallow hxs
  refine ⟨ss, c', hexec, hlength, fun s hs => ?_, hc.steady hsteady, fun k n hn => ?_⟩
  · exact ⟨(hss s hs).sent, (hss s hs).received, (hss s hs).failed, (hss s hs).updated⟩
  · obtain ⟨n', hn', hnoting⟩ := hsteady.nodes k n hn
    refine ⟨n', hn', ?_⟩
    rw [hnoting.rest]
    exact ⟨rfl, rfl, rfl⟩

/-! ### Three nodes at rest -/

def restingItems : OrSet String :=
  (mergeAll (initial : OrSet String) [.add ⟨"a", 1⟩ "x", .add ⟨"b", 1⟩ "y"]).1

def restingSizes (size : Nat) : LwwRegistry ReplicaHolding Nat :=
  (mergeAll (initial : LwwRegistry ReplicaHolding Nat)
    [.set ⟨⟨"t", 0⟩, "a"⟩ size ⟨20, "a"⟩, .set ⟨⟨"t", 0⟩, "b"⟩ size ⟨20, "b"⟩,
      .set ⟨⟨"t", 0⟩, "c"⟩ size ⟨20, "c"⟩]).1

variable {t : CrdtType} {a : t.State}

lemma id_threeInfos : ∀ k ∈ [0, 1, 2], (threeInfos k).id ∈ ["a", "b", "c"] := by
  decide

/-- Three members store a replica in one state, which asks for two copies. -/
def restingTables (a : t.State) : Metadata where
  actor := "a"
  membership := (mergeAll (initial : OrSet NodeInfo) [.add ⟨"a", 1⟩ ⟨"a", "mem://a"⟩,
    .add ⟨"b", 1⟩ ⟨"b", "mem://b"⟩, .add ⟨"c", 1⟩ ⟨"c", "mem://c"⟩]).1
  instances := (mergeAll (initial : LwwRegistry InstanceId InstanceDescriptor)
    [.set "t" ⟨"t", t.name, 1, 2⟩ ⟨10, "a"⟩]).1
  sizes := restingSizes (sizeEstimate a)

def restingNode (a : t.State) (info : NodeInfo) : Node :=
  { Node.create info {} [t] Selection.allNodes Selection.ringSuccessor Selection.ringSuccessor with
    metadata := { restingTables a with actor := info.id }
    hosted := SortedMap.empty.insert "t" ⟨"t", t, 2, [a]⟩
    distributor := (Distributor.ofThreshold Placement.ringDistribution 0.25).feed
      [Node.view (restingTables a)] }

def restingTrio (a : t.State) : Cluster :=
  trio (restingNode a (threeInfos 0)) (restingNode a (threeInfos 1)) (restingNode a (threeInfos 2))

lemma members_restingTables (a : t.State) :
    (restingTables a).members = [0, 1, 2].map threeInfos := by
  have hmembers : (mergeAll (initial : OrSet NodeInfo) [.add ⟨"a", 1⟩ ⟨"a", "mem://a"⟩,
    .add ⟨"b", 1⟩ ⟨"b", "mem://b"⟩, .add ⟨"c", 1⟩ ⟨"c", "mem://c"⟩]).1.items =
      [0, 1, 2].map threeInfos := by decide +kernel
  exact hmembers

lemma replicas_restingTables (a : t.State) :
    ∃ size, (Node.view (restingTables a)).replicas = [⟨⟨"t", 0⟩, size, 2⟩] :=
  ⟨_, rfl⟩

lemma get?_restingSizes (size : Nat) {id : NodeId} (h : id ∈ ["a", "b", "c"]) :
    (restingSizes size).get? ⟨⟨"t", 0⟩, id⟩ = some size := by
  let holding (id : NodeId) : ReplicaHolding := ⟨⟨"t", 0⟩, id⟩
  let entry (id : NodeId) : LwwEntry Nat := ⟨some size, ⟨20, id⟩⟩
  have hnew (id : NodeId) {r : LwwRegistry ReplicaHolding Nat}
      (h : r.entries.get? (holding id) = none) :
      (merge r (.set (holding id) size ⟨20, id⟩)).1 = ⟨r.entries.insert (holding id) (entry id)⟩ :=
    congrArg Prod.fst (LwwRegistry.merge_of_get?_eq_none h)
  have hba : holding "b" ≠ holding "a" := by decide
  have hca : holding "c" ≠ holding "a" := by decide
  have hcb : holding "c" ≠ holding "b" := by decide
  have hsizes : restingSizes size = ⟨((SortedMap.empty.insert (holding "a") (entry "a")).insert
      (holding "b") (entry "b")).insert (holding "c") (entry "c")⟩ := by
    have hfirst : (merge (initial : LwwRegistry ReplicaHolding Nat)
        (.set (holding "a") size ⟨20, "a"⟩)).1 = ⟨SortedMap.empty.insert (holding "a") (entry "a")⟩ :=
      hnew "a" rfl
    have hsecond := hnew "b" (r := ⟨SortedMap.empty.insert (holding "a") (entry "a")⟩)
      (SortedMap.get?_insert_of_ne hba)
    have hthird := hnew "c" (r := ⟨(SortedMap.empty.insert (holding "a") (entry "a")).insert
      (holding "b") (entry "b")⟩)
      ((SortedMap.get?_insert_of_ne hcb).trans (SortedMap.get?_insert_of_ne hca))
    rw [restingSizes, mergeAll_cons, mergeAll_cons, mergeAll_cons, mergeAll_nil, hfirst, hsecond]
    exact hthird
  rw [hsizes, LwwRegistry.get?]
  simp only [List.mem_cons, List.not_mem_nil, or_false] at h
  rcases h with rfl | rfl | rfl
  · rw [SortedMap.get?_insert_of_ne hca.symm, SortedMap.get?_insert_of_ne hba.symm,
      SortedMap.get?_insert_self]
    rfl
  · rw [SortedMap.get?_insert_of_ne hcb.symm, SortedMap.get?_insert_self]
    rfl
  · rw [SortedMap.get?_insert_self]
    rfl

lemma legible_restingTables (hword : sizeEstimate a < word64) : (restingTables a).Legible := by
  have hone : 1 < word64 := by decide
  have hten : 10 < word64 := by decide
  have htwenty : 20 < word64 := by decide
  have hshard : 0 < word16 := by decide
  refine ⟨⟨arisen_mergeAll .initial _, Sendable.fits_mergeAll Sendable.fits_initial ?_⟩,
    ⟨arisen_mergeAll .initial _, Sendable.fits_mergeAll Sendable.fits_initial ?_⟩,
    ⟨arisen_mergeAll .initial _, Sendable.fits_mergeAll Sendable.fits_initial ?_⟩⟩
  · simp only [List.forall_mem_cons]
    exact ⟨⟨hone, trivial⟩, ⟨hone, trivial⟩, ⟨hone, trivial⟩, by simp⟩
  · have htwo : 2 < word32 := by decide
    simp only [List.forall_mem_cons]
    exact ⟨⟨trivial, ⟨(by decide : 1 < word16), htwo⟩, hten⟩, by simp⟩
  · simp only [List.forall_mem_cons]
    exact ⟨⟨hshard, hword, htwenty⟩, ⟨hshard, hword, htwenty⟩, ⟨hshard, hword, htwenty⟩, by simp⟩

lemma sizeReports_restingNode (info : NodeInfo) (hsize : 0 < sizeEstimate a) :
    (restingNode a info).sizeReports = [(⟨⟨"t", 0⟩, info.id⟩, sizeEstimate a)] := by
  change List.filterMap _ [(0, sizeEstimate a)] ++ [] = _
  simp only [List.filterMap_cons, List.filterMap_nil, hsize, decide_true, Bool.true_or, if_true,
    List.append_nil]
  rfl

lemma atRest_restingNode (info : NodeInfo) (hinfo : info.id ∈ ["a", "b", "c"])
    (hsize : 0 < sizeEstimate a) : (restingNode a info).AtRest (restingTables a) where
  valid := (by decide +kernel : NodeConfig.validate {} = .ok ())
  named id h hh := by
    by_cases hid : id = "t"
    · subst hid
      cases hh
      rfl
    · have hnone := (SortedMap.get?_insert_of_ne hid).symm.trans hh
      cases hnone
  chooses cs p hp := .inl (Selection.picks_ringSuccessor.candidate hp)
  tables k := by cases k <;> rfl
  settled := by
    refine ⟨fun d hd t' _ _ => ?_, [], rfl⟩
    have hone : (restingTables a).descriptors = [⟨"t", t.name, 1, 2⟩] := rfl
    obtain rfl := List.mem_singleton.mp (hone ▸ hd)
    exact congrArg Option.isSome SortedMap.get?_insert_self
  reported := by
    rw [sizeReports_restingNode info hsize, List.forall_mem_singleton]
    exact get?_restingSizes _ hinfo

lemma node_restingTrio (hn : (restingTrio a).nodes.get? seat = some n) :
    seat ∈ [0, 1, 2] ∧ n = restingNode a (threeInfos seat) := by
  rcases node_trio hn with ⟨rfl, rfl⟩ | ⟨rfl, rfl⟩ | ⟨rfl, rfl⟩ <;> exact ⟨by decide, rfl⟩

lemma holds_restingNode (a : t.State) (info : NodeInfo) :
    (restingNode a info).Holds ⟨"t", 0⟩ (Is a) :=
  ⟨_, _, rfl, rfl, .intro⟩

lemma quiescent_restingTrio (ha : Legible a) (hsize : 0 < sizeEstimate a)
    (hword : sizeEstimate a < word64) : (restingTrio a).Quiescent (restingTables a) where
  legible := legible_restingTables hword
  online k n hn := by
    obtain ⟨hk, rfl⟩ := node_restingTrio hn
    have hserved : ∀ k ∈ [0, 1, 2], (((SortedMap.empty.insert "mem://a" 0).insert "mem://b" 1).insert
        "mem://c" 2).get? (threeInfos k).address = some k := by decide +kernel
    exact ⟨hn, hserved k hk, rfl, rfl, (by decide : 0 < ({} : NodeConfig).exchangeBatchSize),
      (by decide : ({} : NodeConfig).exchangeChannelCapacity ≤ maxCapacity)⟩
  atRest k n hn := by
    obtain ⟨hk, rfl⟩ := node_restingTrio hn
    exact atRest_restingNode _ (id_threeInfos k hk) hsize
  members p hp := by
    rw [members_restingTables] at hp
    obtain ⟨k, hk, rfl⟩ := List.mem_map.mp hp
    simp only [List.mem_cons, List.not_mem_nil, or_false] at hk
    rcases hk with rfl | rfl | rfl
    · exact ⟨0, _, rfl, rfl⟩
    · exact ⟨1, _, rfl, rfl⟩
    · exact ⟨2, _, rfl, rfl⟩
  replicas r := by
    refine ⟨t, a, ha, fun k n hn w hw k' n' hn' _ => ?_⟩
    obtain ⟨-, rfl⟩ := node_restingTrio hn
    obtain ⟨-, rfl⟩ := node_restingTrio hn'
    obtain ⟨size, hreplicas⟩ := replicas_restingTables a
    obtain ⟨info, hinfo, rfl⟩ := Distributor.exists_replica_of_mem_readReplicas [] hw
    obtain rfl := List.mem_singleton.mp (hreplicas ▸ hinfo)
    exact holds_restingNode a _

lemma isReadReplica_restingNode (hsize : 0 < sizeEstimate a) (hk : seat ∈ [0, 1, 2]) :
    let d := (Distributor.ofThreshold Placement.ringDistribution 0.25).feed
      [Node.view (restingTables a)]
    d.isReadReplica ⟨"t", 0⟩ (threeInfos seat).id = true ∧
      ⟨"t", 0⟩ ∈ d.heldBy (threeInfos seat).id := by
  have hmember : threeInfos seat ∈ (restingTables a).members := by
    rw [members_restingTables]
    exact List.mem_map_of_mem hk
  have hd : (⟨"t", t.name, 1, 2⟩ : InstanceDescriptor) ∈ (restingTables a).descriptors :=
    List.mem_singleton_self _
  exact Node.isReadReplica_of_recorded hmember
    (get?_restingSizes _ (id_threeInfos seat hk)) hsize hd (List.mem_singleton_self _) 0.25 []

lemma heldBy_restingNode (hsize : 0 < sizeEstimate a) (hk : seat ∈ [0, 1, 2]) :
    (restingNode a (threeInfos seat)).distributor.heldBy (threeInfos seat).id = [⟨"t", 0⟩] := by
  have hheld := (isReadReplica_restingNode hsize hk).2
  obtain ⟨size, hreplicas⟩ := replicas_restingTables a
  refine List.perm_singleton.mp ((List.perm_ext_iff_of_nodup ((SortedMap.nodup_keys _).filter _)
    (List.nodup_singleton _)).mpr fun r => ?_)
  rw [List.mem_singleton]
  refine ⟨fun hr => ?_, fun hr => hr ▸ hheld⟩
  obtain ⟨w, hw, -⟩ := List.any_eq_true.mp (List.mem_filter.mp hr).2
  obtain ⟨info, hinfo, rfl⟩ := Distributor.exists_replica_of_mem_readReplicas [] hw
  rw [hreplicas, List.mem_singleton] at hinfo
  rw [hinfo]

lemma shallow_restingTrio (hsize : 0 < sizeEstimate a)
    (hnesting : (toJson (timestamp a)).nesting ≤ Json.Reader.maxOpen) :
    (restingTrio a).Shallow := by
  intro k n hn r hr
  obtain ⟨hk, rfl⟩ := node_restingTrio hn
  obtain rfl := List.mem_singleton.mp (heldBy_restingNode hsize hk ▸ hr)
  exact ⟨_, _, rfl, rfl, hnesting⟩

/-- Rounds of all three, one of them twice, with hours between them. -/
theorem idle_rounds_of_three :
    let c := restingTrio (t := .orSet .string) restingItems
    let m := restingTables (t := .orSet .string) restingItems
    c.Quiescent m ∧ ∃ ss c',
      exec ([⟨1, 1000, 0⟩, ⟨0, 1000, 5⟩, ⟨2, 7200000, 900000⟩, ⟨1, 0, 900000⟩].mapM RoundAt.run)
        c = (.ok ss, c') ∧ ss.length = 4 ∧
      (∀ s ∈ ss, s.sent = 0 ∧ s.received = 0 ∧ s.failed = 0 ∧ s.updated = []) ∧
      c'.Quiescent m ∧ ∀ k n, c.nodes.get? k = some n →
        ∃ n', c'.nodes.get? k = some n' ∧ n'.metadata = n.metadata ∧ n'.hosted = n.hosted ∧
          n'.distributor = n.distributor := by
  intro c m
  have hlegible : Legible (S := (CrdtType.orSet .string).State) restingItems := by
    have hfits : ∀ δ ∈ [OrSetDelta.add ⟨"a", 1⟩ "x", .add ⟨"b", 1⟩ "y"], Fits δ := by
      have hone : 1 < word64 := by decide
      simp only [List.forall_mem_cons]
      exact ⟨⟨hone, trivial⟩, ⟨hone, trivial⟩, by simp⟩
    exact ⟨arisen_mergeAll (S := (CrdtType.orSet .string).State) .initial _,
      Sendable.fits_mergeAll (S := OrSet String) Sendable.fits_initial hfits⟩
  have hsize : 0 < sizeEstimate (S := OrSet String) restingItems ∧
      sizeEstimate (S := OrSet String) restingItems < word64 := by decide +kernel
  have hquiescent : c.Quiescent m := quiescent_restingTrio hlegible hsize.1 hsize.2
  have hshallow : c.Shallow :=
    shallow_restingTrio hsize.1 ((nesting_le_depth hlegible.fits).trans (by decide))
  have hall : ∀ x ∈ ([⟨1, 1000, 0⟩, ⟨0, 1000, 5⟩, ⟨2, 7200000, 900000⟩, ⟨1, 0, 900000⟩] :
      List RoundAt), (c.nodes.get? x.seat).isSome := by
    simp only [List.forall_mem_cons]
    exact ⟨rfl, rfl, rfl, rfl, by simp⟩
  exact ⟨hquiescent, rounds_of_quiescent hquiescent hshallow _ hall⟩

/-! ### What is too deep to be at rest -/

lemma reader_restingNode (hsize : 0 < sizeEstimate a) (hk : seat ∈ [0, 1, 2]) (timer : Nat) :
    (restingNode a (threeInfos seat)).Reader timer ⟨"t", 0⟩ ([0, 1, 2].map threeInfos) where
  named := (atRest_restingNode _ (id_threeInfos seat hk) hsize).named
  planned p := by
    have hmember {p : NodeInfo}
        (hp : p ∈ (restingNode a (threeInfos seat)).distributor.readReplicas ⟨"t", 0⟩) :
        p ∈ [0, 1, 2].map threeInfos :=
      members_restingTables a ▸ Distributor.mem_nodes_of_mem_readReplicas [] hp
    refine ⟨hmember, fun hp => ?_⟩
    obtain ⟨k, hk', rfl⟩ := List.mem_map.mp hp
    obtain ⟨w, hw, hid⟩ := List.any_eq_true.mp (isReadReplica_restingNode (a := a) hsize hk').1
    have hdistinct : ∀ w ∈ [0, 1, 2].map threeInfos, ∀ k ∈ [0, 1, 2],
        w.id = (threeInfos k).id → w = threeInfos k := by decide
    exact hdistinct w (hmember hw) k hk' (of_decide_eq_true hid) ▸ hw
  successor := rfl
  unmarked p _ := rfl
  caughtUp := rfl

/-- The nodes go on to read the replica, whatever they note in the meantime. -/
lemma readers_restingTrio (hc : (restingTrio a).Quiescent m) (hsize : 0 < sizeEstimate a)
    (hsteady : Steady (restingTrio a) c) :
    c.Readers ⟨"t", 0⟩ [0, 1, 2] threeInfos fun _ => a where
  nodes k hk := by
    have hn : (restingTrio a).nodes.get? k = some (restingNode a (threeInfos k)) := by
      simp only [List.mem_cons, List.not_mem_nil, or_false] at hk
      rcases hk with rfl | rfl | rfl <;> rfl
    obtain ⟨n, hn', hnoting⟩ := hsteady.nodes k _ hn
    exact ⟨n, hnoting.info, (hc.steady hsteady).online k n hn',
      (reader_restingNode hsize hk c.timer).noting hnoting,
      hnoting.holds (holds_restingNode a _)⟩
  distinct := by decide

/-- Three nodes store a set in 42 maps in one state, and still the exchange of it fails in a round;
and a queue for `2 ^ 61` frames is refused whatever they store. -/
theorem deep_replicas_keep_failing :
    let a := CrdtType.addedWithin "a" 42
    (restingTrio a).Quiescent (restingTables a) ∧
      (∃ s c', exec (syncRound 0) (restingTrio a) = (.ok s, c') ∧ s.failed = 1) ∧
      checkCapacity (2 ^ 61) = .error .queueTooLarge := by
  intro a
  have hsize : sizeEstimate a = 43 := CrdtType.sizeEstimate_addedWithin "a" 42
  have hpos : 0 < sizeEstimate a := hsize ▸ Nat.succ_pos 42
  have hlegible : Legible a := ⟨.apply "a" _ .initial, CrdtType.fits_timestamp_addedWithin "a" 42⟩
  have hquiescent := quiescent_restingTrio hlegible hpos (hsize ▸ (by decide : 43 < word64))
  refine ⟨hquiescent, ?_, by decide⟩
  have hn : (restingTrio a).nodes.get? 0 = some (restingNode a (threeInfos 0)) := rfl
  obtain ⟨s₁, c₁, hs₁, hsteady, hround⟩ := hquiescent.exec_syncRound hn
  have hreaders := readers_restingTrio hquiescent hpos hsteady
  obtain ⟨ring, hring⟩ := hreaders.exists_ringOf (by decide)
  obtain ⟨s', c', hexec, hfailed, -⟩ := hreaders.miss (fun _ _ =>
    CrdtType.decode_timestamp_addedWithin "a" (le_refl 42)) hring (i := 0) (by decide) s₁
  have hheld : (restingNode a (threeInfos 0)).distributor.heldBy
      (restingNode a (threeInfos 0)).info.id = [⟨"t", 0⟩] :=
    heldBy_restingNode hpos (by decide)
  refine ⟨s', c', ?_, ?_⟩
  · rw [hround, hheld, List.foldlM_cons, exec_bind_ok hexec]
    rfl
  · rw [hfailed, hs₁.failed, if_neg (by rw [hring.perm.length_eq]; decide)]

end Cluster

end DeltaRing
