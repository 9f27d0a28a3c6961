import DeltaRing.Proofs.Cluster.Exec
import DeltaRing.Proofs.Parking.Order

/-!
A node whose peers answer as they like.

The clients of the peers have a state of their own, from which they answer, and time may pass while
they do; but they do not call back. Every call is written down with its answer. A push visits one
peer after another: what is parked for the peer goes first, as far as it is accepted, and then the
push itself. Nothing of this concerns the other peers.
-/

namespace DeltaRing.Propagation

open DeltaRing.Action RetryBuffer

structure Contact where
  peer : NodeInfo
  /-- What the peer was sent; nothing, if there was no client for it. -/
  sent : Option Push
  answer : Except ClusterError MergeResult

structure Site (ω : Type) where
  clients : ω
  /-- Milliseconds on the timer. -/
  timer : Nat
  distributor : Distributor
  outbox : Outbox
  /-- All calls so far, in order. -/
  contacts : List Contact

structure Clients (ω : Type) where
  /-- Gets hold of a client, or fails. -/
  find : NodeInfo → ω → Except ClusterError Unit × ω
  /-- Sends a push to a peer: its answer, and the milliseconds that pass. -/
  call : NodeInfo → Push → ω → Except ClusterError MergeResult × ω × Nat

variable {ω : Type}

/-- The node, which pushes to all its peers. -/
def Clients.station (k : Clients ω) (here : NodeInfo) (rerouting : Strategy) (maxHops : Nat) :
    Station (Site ω) where
  here := here
  propagation := Selection.allNodes
  rerouting := rerouting
  maxHops := maxHops
  now := Site.timer
  distributor := Site.distributor
  outbox := Site.outbox
  setOutbox := fun outbox s => { s with outbox }
  connect := fun peer => ExceptT.mk fun s =>
    match k.find peer s.clients with
    | (.ok (), clients) => (.ok (), { s with clients })
    | (.error e, clients) =>
      (.error e, { s with clients, contacts := s.contacts ++ [⟨peer, none, .error e⟩] })
  push := fun peer p => ExceptT.mk fun s =>
    let (answer, clients, pause) := k.call peer p s.clients
    (answer, { s with
      clients
      timer := s.timer + pause
      contacts := s.contacts ++ [⟨peer, some p, answer⟩] })

structure Visit where
  peer : NodeInfo
  /-- The calls for what was parked for the peer. -/
  replayed : List Contact
  /-- The push, if there was a client for the peer. -/
  sent : Option Push
  answer : Except ClusterError MergeResult

namespace Visit

def contacts (v : Visit) : List Contact := v.replayed ++ [⟨v.peer, v.sent, v.answer⟩]

def Accepted (v : Visit) : Prop := ∃ result, v.answer = .ok result

def Unreached (v : Visit) : Prop := ∃ e, v.answer = .error e ∧ e.isUnreachable = true

def Refused (v : Visit) : Prop := ∃ e, v.answer = .error e ∧ e.isUnreachable = false

lemma cases (v : Visit) : v.Accepted ∨ v.Unreached ∨ v.Refused := by
  rw [Accepted, Unreached, Refused]
  cases v.answer with
  | ok result => exact .inl ⟨result, rfl⟩
  | error e =>
    cases hunreachable : e.isUnreachable with
    | true => exact .inr (.inl ⟨e, rfl, hunreachable⟩)
    | false => exact .inr (.inr ⟨e, rfl, hunreachable⟩)

variable {v : Visit}

lemma Accepted.not_unreached (h : v.Accepted) : ¬ v.Unreached := by
  rintro ⟨e, he, -⟩
  obtain ⟨result, hresult⟩ := h
  rw [hresult] at he
  cases he

lemma Accepted.not_refused (h : v.Accepted) : ¬ v.Refused := by
  rintro ⟨e, he, -⟩
  obtain ⟨result, hresult⟩ := h
  rw [hresult] at he
  cases he

lemma Unreached.not_refused (h : v.Unreached) : ¬ v.Refused := by
  rintro ⟨e, he, hreachable⟩
  obtain ⟨e', he', hunreachable⟩ := h
  rw [he] at he'
  cases he'
  rw [hreachable] at hunreachable
  cases hunreachable

/-- The calls of a visit go to its peer. What is replayed was parked for the peer, and the push goes
last, or there is no client to send it with. -/
structure Carries (v : Visit) (p : Push) (parked : List (TaggedPush Push)) : Prop where
  peer : ∀ c ∈ v.replayed, c.peer = v.peer
  replayed : ∀ c ∈ v.replayed, ∀ q ∈ c.sent, ∃ t ∈ parked, t.payload = q
  sent : v.sent = some p ∨ v.sent = none ∧ ∃ e, v.answer = .error e

end Visit

/-! ### Calls -/

section

variable (k : Clients ω) (here : NodeInfo) (rerouting : Strategy) (maxHops : Nat) (peer : NodeInfo)

lemma exec_send (p : Push) (s : Site ω) : ∃ clients pause sent answer,
    exec ((k.station here rerouting maxHops).send peer p) s = (answer, { s with
      clients
      timer := s.timer + pause
      contacts := s.contacts ++ [⟨peer, sent, answer⟩] }) ∧
    (sent = some p ∨ sent = none ∧ ∃ e, answer = .error e) := by
  rcases hfind : k.find peer s.clients with ⟨found, clients⟩
  cases found with
  | error e =>
    refine ⟨clients, 0, none, .error e, ?_, .inr ⟨rfl, e, rfl⟩⟩
    have hconnect : exec ((k.station here rerouting maxHops).connect peer) s = (.error e, { s with
        clients
        contacts := s.contacts ++ [⟨peer, none, .error e⟩] }) := by
      simp only [exec, Clients.station, ExceptT.run_mk, StateT.run, hfind]
    rw [Station.send, exec_bind_error hconnect]
    rfl
  | ok _ =>
    rcases hcall : k.call peer p clients with ⟨answer, clients', pause⟩
    refine ⟨clients', pause, some p, answer, ?_, .inl rfl⟩
    have hconnect : exec ((k.station here rerouting maxHops).connect peer) s =
        (.ok (), { s with clients }) := by
      simp only [exec, Clients.station, ExceptT.run_mk, StateT.run, hfind]
    rw [Station.send, exec_bind_ok hconnect]
    simp only [exec, Clients.station, ExceptT.run_mk, StateT.run, hcall]

/-- A replay calls the peer for some of the pushes and puts the rest back. -/
lemma run_replay (pushes : List (TaggedPush Push)) (s : Site ω) : ∃ clients pause replayed left,
    (((k.station here rerouting maxHops).replay peer pushes).run s).2 = { s with
      clients
      timer := s.timer + pause
      contacts := s.contacts ++ replayed
      outbox := { s.outbox with retry := s.outbox.retry.requeue peer.id left } } ∧
    left <:+ pushes ∧
    ∀ c ∈ replayed, c.peer = peer ∧ ∀ q ∈ c.sent, ∃ t ∈ pushes, t.payload = q := by
  induction pushes generalizing s with
  | nil =>
    refine ⟨s.clients, 0, [], [], ?_, List.suffix_rfl, by simp⟩
    rw [List.append_nil]
    rfl
  | cons p pushes ih =>
    obtain ⟨clients, pause, sent, answer, hexec, hsent⟩ :=
      exec_send k here rerouting maxHops peer p.payload s
    have hrun : ((k.station here rerouting maxHops).send peer p.payload).run.run s =
        (answer, _) := hexec
    have hcontact : ∀ q ∈ sent, ∃ t ∈ p :: pushes, t.payload = q := fun q hq => by
      rcases hsent with rfl | ⟨rfl, -⟩
      · exact ⟨p, List.mem_cons_self, Option.some.inj hq⟩
      · cases hq
    rw [Station.run_replay_cons, hrun]
    cases answer with
    | error e =>
      refine ⟨clients, pause, [⟨peer, sent, .error e⟩], p :: pushes, rfl, List.suffix_rfl, ?_⟩
      intro c hc
      rw [List.mem_singleton.mp hc]
      exact ⟨rfl, hcontact⟩
    | ok result =>
      obtain ⟨clients', pause', replayed, left, hrest, hleft, hreplayed⟩ := ih { s with
        clients
        timer := s.timer + pause
        contacts := s.contacts ++ [⟨peer, sent, .ok result⟩] }
      refine ⟨clients', pause + pause', ⟨peer, sent, .ok result⟩ :: replayed, left, ?_,
        hleft.trans (List.suffix_cons p pushes), fun c hc => ?_⟩
      · rw [hrest, Nat.add_assoc, List.append_assoc, List.singleton_append]
      · rcases List.mem_cons.mp hc with rfl | hc
        · exact ⟨rfl, hcontact⟩
        · obtain ⟨hpeer, hparked⟩ := hreplayed c hc
          refine ⟨hpeer, fun q hq => ?_⟩
          obtain ⟨t, ht, htq⟩ := hparked q hq
          exact ⟨t, List.mem_cons_of_mem p ht, htq⟩

end

/-! ### Visits -/

def noted (o : Outbox) (now : Nat) (peer : NodeInfo) (p : Push) :
    Except ClusterError MergeResult → Outbox
  | .ok _ => { o with failures := o.failures.reportSuccess peer }
  | .error e =>
    if e.isUnreachable then
      ⟨o.failures.reportUnreachable now peer, (o.retry.push peer.id p.detached).1⟩
    else o

section

variable (k : Clients ω) (here : NodeInfo) (rerouting : Strategy) (maxHops : Nat) (peer : NodeInfo)

lemma exec_noting (p : Push) (answer : Except ClusterError MergeResult) (s : Site ω) :
    exec ((k.station here rerouting maxHops).noting peer p answer) s =
      (answer, { s with outbox := noted s.outbox s.timer peer p answer }) := by
  cases answer with
  | ok result => rfl
  | error e =>
    cases hunreachable : e.isUnreachable with
    | true => simp only [Station.noting, noted, hunreachable, if_true]; rfl
    | false => simp only [Station.noting, noted, hunreachable, Bool.false_eq_true, if_false]; rfl

lemma exec_deliver_visit {p : Push} (hctx : p.ctx.cancelled = false) (s : Site ω) :
    ∃ (v : Visit) (clients : ω) (pause : Nat) (left : List (TaggedPush Push)),
      exec ((k.station here rerouting maxHops).deliver peer p) s = (v.answer, { s with
        clients
        timer := s.timer + pause
        contacts := s.contacts ++ v.contacts
        outbox := noted
          { s.outbox with retry := (s.outbox.retry.clear peer.id).requeue peer.id left }
          (s.timer + pause) peer p v.answer }) ∧
      v.peer = peer ∧ left <:+ s.outbox.retry.queue peer.id ∧
      v.Carries p (s.outbox.retry.queue peer.id) := by
  obtain ⟨clients, pause, replayed, left, hreplay, hleft, hreplayed⟩ :=
    run_replay k here rerouting maxHops peer (s.outbox.retry.queue peer.id)
      { s with outbox := { s.outbox with retry := s.outbox.retry.clear peer.id } }
  have hflush : (((k.station here rerouting maxHops).flush peer).run s).2 = _ := hreplay
  obtain ⟨clients', pause', sent, answer, hsend, hsent⟩ :=
    exec_send k here rerouting maxHops peer p
      (((k.station here rerouting maxHops).flush peer).run s).2
  refine ⟨⟨peer, replayed, sent, answer⟩, clients', pause + pause', left, ?_, rfl, hleft,
    fun c hc => (hreplayed c hc).1, fun c hc => (hreplayed c hc).2, hsent⟩
  rw [Station.exec_deliver _ hctx, hsend, exec_noting, hflush]
  simp only [Visit.contacts, List.append_assoc, Nat.add_assoc]

end

end DeltaRing.Propagation
