import DeltaRing.Proofs.Placement.Selection
import DeltaRing.Proofs.Propagation.Clients

/-!
What comes of a push.

Whatever the peers answer, and whatever was marked and parked before, no peer is passed over in
silence: it has accepted the push, or the push is parked for it, or it has refused the push. Since
the visits do not concern each other, what a visit has done for its peer is there at the end.
-/

namespace DeltaRing

namespace FailureDetector

variable {f : FailureDetector} {now : Nat} {node : NodeInfo} {id : NodeId}

lemma get?_marks_reportSuccess_self : (f.reportSuccess node).marks.get? node.id = none := by
  rw [reportSuccess]
  split
  · simp [announce]
  · rename_i h
    simpa [SortedMap.contains] using h

lemma get?_marks_reportSuccess_of_ne (h : id ≠ node.id) :
    (f.reportSuccess node).marks.get? id = f.marks.get? id := by
  rw [reportSuccess]
  split
  · simp [announce, SortedMap.get?_erase_of_ne h]
  · rfl

@[simp] lemma recheck_reportSuccess : (f.reportSuccess node).recheck = f.recheck := by
  rw [reportSuccess]
  split <;> rfl

lemma marks_reportUnreachable :
    (f.reportUnreachable now node).marks = f.marks.insert node.id (node, now) := by
  rw [reportUnreachable]
  split <;> rfl

@[simp] lemma recheck_reportUnreachable : (f.reportUnreachable now node).recheck = f.recheck := by
  rw [reportUnreachable]
  split <;> rfl

/-- A mark that does not hold has lapsed. -/
lemma recheck_le_of_not_isUnreachable {since : Nat} (h : f.isUnreachable now id = false)
    (hmark : f.marks.get? id = some (node, since)) : f.recheck ≤ now - since := by
  simpa [isUnreachable, hmark] using h

end FailureDetector

namespace Propagation

open DeltaRing.Action RetryBuffer

variable {ω : Type} {p : Push} {v w : Visit} {visits : List Visit} {s s' s'' : Site ω}
  {id : NodeId}

/-! ### What a visit changes -/

structure Later (s s' : Site ω) : Prop where
  timer : s.timer ≤ s'.timer
  currentSeq : s.outbox.retry.currentSeq ≤ s'.outbox.retry.currentSeq
  recheck : s'.outbox.failures.recheck = s.outbox.failures.recheck
  wellKept : s'.outbox.retry.WellKept

structure Spares (id : NodeId) (s s' : Site ω) : Prop where
  queue : s'.outbox.retry.queue id = s.outbox.retry.queue id
  mark : s'.outbox.failures.marks.get? id = s.outbox.failures.marks.get? id

/-- The newest push that is parked for a peer is this one, with a number that was handed out
meanwhile. -/
def ParkedSince (q : Push) (id : NodeId) (s s' : Site ω) : Prop :=
  ∃ seq, s.outbox.retry.currentSeq < seq ∧
    (s'.outbox.retry.queue id).getLast? = some ⟨seq, q⟩

def MarkedSince (peer : NodeInfo) (s s' : Site ω) : Prop :=
  ∃ since, s.timer ≤ since ∧ s'.outbox.failures.marks.get? peer.id = some (peer, since)

structure Settles (p : Push) (v : Visit) (s s' : Site ω) : Prop where
  accepted : v.Accepted → s'.outbox.failures.marks.get? v.peer.id = none
  marked : v.Unreached → MarkedSince v.peer s s'
  parked : v.Unreached → ParkedSince p.detached v.peer.id s s'
  refused : v.Refused →
    s'.outbox.failures.marks.get? v.peer.id = s.outbox.failures.marks.get? v.peer.id
  left : ¬ v.Unreached → ∀ t ∈ s'.outbox.retry.queue v.peer.id, t ∈ s.outbox.retry.queue v.peer.id

structure Visited (p : Push) (v : Visit) (s s' : Site ω) : Prop where
  later : Later s s'
  settles : Settles p v s s'
  contacts : s'.contacts = s.contacts ++ v.contacts
  elsewhere : ∀ id, id ≠ v.peer.id → Spares id s s'
  carries : v.Carries p (s.outbox.retry.queue v.peer.id)

lemma Later.trans (h : Later s s') (h' : Later s' s'') : Later s s'' where
  timer := h.timer.trans h'.timer
  currentSeq := h.currentSeq.trans h'.currentSeq
  recheck := h'.recheck.trans h.recheck
  wellKept := h'.wellKept

lemma Spares.refl (id : NodeId) (s : Site ω) : Spares id s s := ⟨rfl, rfl⟩

lemma Spares.trans (h : Spares id s s') (h' : Spares id s' s'') : Spares id s s'' :=
  ⟨h'.queue.trans h.queue, h'.mark.trans h.mark⟩

lemma ParkedSince.spares {q : Push} (h : ParkedSince q id s s') (h' : Spares id s' s'') :
    ParkedSince q id s s'' := by
  obtain ⟨seq, hlt, hlast⟩ := h
  exact ⟨seq, hlt, h'.queue ▸ hlast⟩

lemma ParkedSince.later {q : Push} (h : Later s s') (h' : ParkedSince q id s' s'') :
    ParkedSince q id s s'' := by
  obtain ⟨seq, hlt, hlast⟩ := h'
  exact ⟨seq, h.currentSeq.trans_lt hlt, hlast⟩

lemma MarkedSince.spares {peer : NodeInfo} (h : MarkedSince peer s s')
    (h' : Spares peer.id s' s'') : MarkedSince peer s s'' := by
  obtain ⟨since, hsince, hmark⟩ := h
  exact ⟨since, hsince, h'.mark.trans hmark⟩

lemma MarkedSince.later {peer : NodeInfo} (h : Later s s') (h' : MarkedSince peer s' s'') :
    MarkedSince peer s s'' := by
  obtain ⟨since, hsince, hmark⟩ := h'
  exact ⟨since, h.timer.trans hsince, hmark⟩

/-- What came of the peer before its visit makes no difference. -/
lemma Settles.of_spares (h : Later s s') (hid : Spares v.peer.id s s') (h' : Settles p v s' s'') :
    Settles p v s s'' where
  accepted := h'.accepted
  marked hv := (h'.marked hv).later h
  parked hv := (h'.parked hv).later h
  refused hv := (h'.refused hv).trans hid.mark
  left hv t ht := hid.queue ▸ h'.left hv t ht

lemma Settles.spares (h : Settles p v s s') (hid : Spares v.peer.id s' s'') :
    Settles p v s s'' where
  accepted hv := hid.mark.trans (h.accepted hv)
  marked hv := (h.marked hv).spares hid
  parked hv := (h.parked hv).spares hid
  refused hv := hid.mark.trans (h.refused hv)
  left hv t ht := h.left hv t (hid.queue ▸ ht)

/-! ### The outbox after an answer -/

section

variable {o : Outbox} {now : Nat}

lemma noted_accepted (hv : v.Accepted) : noted o now v.peer p v.answer =
    { o with failures := o.failures.reportSuccess v.peer } := by
  obtain ⟨result, hanswer⟩ := hv
  rw [hanswer, noted]

lemma noted_unreached (hv : v.Unreached) : noted o now v.peer p v.answer =
    ⟨o.failures.reportUnreachable now v.peer, (o.retry.push v.peer.id p.detached).1⟩ := by
  obtain ⟨e, hanswer, hunreachable⟩ := hv
  rw [hanswer, noted, if_pos hunreachable]

lemma noted_refused (hv : v.Refused) : noted o now v.peer p v.answer = o := by
  obtain ⟨e, hanswer, hreachable⟩ := hv
  rw [hanswer, noted, if_neg (by simp [hreachable])]

end

/-! ### One visit after another -/

/-- A buffer in which some of what was parked for a peer is left, and the rest as it was. -/
structure LeftOf (id : NodeId) (b b' : RetryBuffer NodeId Push) : Prop where
  wellKept : b'.WellKept
  currentSeq : b'.currentSeq = b.currentSeq
  queue : ∀ t ∈ b'.queue id, t ∈ b.queue id
  elsewhere : ∀ id', id' ≠ id → b'.queue id' = b.queue id'

lemma leftOf_requeue {b : RetryBuffer NodeId Push} {left : List (TaggedPush Push)}
    (hkept : b.WellKept) (hleft : left <:+ b.queue id) :
    LeftOf id b ((b.clear id).requeue id left) where
  wellKept := hkept.clear.requeue fun t ht => hkept.numbered id t (hleft.subset ht)
  currentSeq := currentSeq_requeue
  queue t ht := by
    rw [queue_requeue_self hkept.clear.fits, queue_clear_self, List.append_nil] at ht
    exact hleft.subset (List.mem_of_mem_drop ht)
  elsewhere id' hid := by rw [queue_requeue_of_ne hid, queue_clear_of_ne hid]

section

variable {b : RetryBuffer NodeId Push} {clients : ω} {pause : Nat}

def afterwards (s : Site ω) (clients : ω) (pause : Nat) (v : Visit) (o : Outbox) : Site ω :=
  { s with
    clients
    timer := s.timer + pause
    contacts := s.contacts ++ v.contacts
    outbox := o }

lemma visited_of_accepted (hv : v.Accepted) (hb : LeftOf v.peer.id s.outbox.retry b)
    (hcarries : v.Carries p (s.outbox.retry.queue v.peer.id)) :
    Visited p v s (afterwards s clients pause v
      ⟨s.outbox.failures.reportSuccess v.peer, b⟩) where
  later := ⟨Nat.le_add_right _ _, hb.currentSeq.ge, FailureDetector.recheck_reportSuccess,
    hb.wellKept⟩
  settles := {
    accepted := fun _ => FailureDetector.get?_marks_reportSuccess_self
    marked := fun hv' => absurd hv' hv.not_unreached
    parked := fun hv' => absurd hv' hv.not_unreached
    refused := fun hv' => absurd hv' hv.not_refused
    left := fun _ => hb.queue }
  contacts := rfl
  elsewhere id hid := ⟨hb.elsewhere id hid, FailureDetector.get?_marks_reportSuccess_of_ne hid⟩
  carries := hcarries

lemma visited_of_unreached (hv : v.Unreached) (hb : LeftOf v.peer.id s.outbox.retry b)
    (hcarries : v.Carries p (s.outbox.retry.queue v.peer.id)) :
    Visited p v s (afterwards s clients pause v
      ⟨s.outbox.failures.reportUnreachable (s.timer + pause) v.peer,
        (b.push v.peer.id p.detached).1⟩) := by
  have hmarks (id : NodeId) :
      (s.outbox.failures.reportUnreachable (s.timer + pause) v.peer).marks.get? id =
        (s.outbox.failures.marks.insert v.peer.id (v.peer, s.timer + pause)).get? id := by
    rw [FailureDetector.marks_reportUnreachable]
  have htimer : s.timer ≤ s.timer + pause := Nat.le_add_right _ _
  have hseq : b.currentSeq ≤ (b.push v.peer.id p.detached).1.currentSeq := by
    rw [currentSeq_push]
    exact Nat.le_succ _
  exact {
    later := ⟨htimer, hb.currentSeq.ge.trans hseq, FailureDetector.recheck_reportUnreachable,
      hb.wellKept.push⟩
    settles := {
      accepted := fun hv' => absurd hv hv'.not_unreached
      marked := fun _ => ⟨s.timer + pause, htimer, (hmarks _).trans SortedMap.get?_insert_self⟩
      parked := fun _ =>
        ⟨b.currentSeq + 1, hb.currentSeq ▸ Nat.lt_succ_self _, hb.wellKept.getLast?_push⟩
      refused := fun hv' => absurd hv' hv.not_refused
      left := fun hv' => absurd hv hv' }
    contacts := rfl
    elsewhere := fun id hid =>
      ⟨(queue_push_of_ne hb.wellKept.fits hid).trans (hb.elsewhere id hid),
        (hmarks id).trans (SortedMap.get?_insert_of_ne hid)⟩
    carries := hcarries }

lemma visited_of_refused (hv : v.Refused) (hb : LeftOf v.peer.id s.outbox.retry b)
    (hcarries : v.Carries p (s.outbox.retry.queue v.peer.id)) :
    Visited p v s (afterwards s clients pause v ⟨s.outbox.failures, b⟩) where
  later := ⟨Nat.le_add_right _ _, hb.currentSeq.ge, rfl, hb.wellKept⟩
  settles := {
    accepted := fun hv' => absurd hv hv'.not_refused
    marked := fun hv' => absurd hv hv'.not_refused
    parked := fun hv' => absurd hv hv'.not_refused
    refused := fun _ => rfl
    left := fun _ => hb.queue }
  contacts := rfl
  elsewhere id hid := ⟨hb.elsewhere id hid, rfl⟩
  carries := hcarries

end

section

variable (k : Clients ω) (here : NodeInfo) (rerouting : Strategy) (maxHops : Nat)

/-- A visit comes to something for its peer, and to nothing for the others. -/
lemma visited_deliver (hkept : s.outbox.retry.WellKept) (hctx : p.ctx.cancelled = false)
    (peer : NodeInfo) : ∃ v : Visit, v.peer = peer ∧
      (exec ((k.station here rerouting maxHops).deliver peer p) s).1 = v.answer ∧
      Visited p v s (exec ((k.station here rerouting maxHops).deliver peer p) s).2 := by
  obtain ⟨v, clients, pause, left, hexec, rfl, hleft, hcarries⟩ :=
    exec_deliver_visit k here rerouting maxHops peer hctx s
  rw [hexec]
  refine ⟨v, rfl, rfl, ?_⟩
  have hb := leftOf_requeue hkept hleft
  rcases v.cases with hv | hv | hv
  · rw [noted_accepted hv]
    exact visited_of_accepted hv hb hcarries
  · rw [noted_unreached hv]
    exact visited_of_unreached hv hb hcarries
  · rw [noted_refused hv]
    exact visited_of_refused hv hb hcarries

end

inductive Round (p : Push) : List Visit → Site ω → Site ω → Prop
  | nil (s : Site ω) : Round p [] s s
  | cons {v : Visit} {visits : List Visit} {s s' s'' : Site ω} :
    Visited p v s s' → Round p visits s' s'' → Round p (v :: visits) s s''

namespace Round

lemma later (h : Round p visits s s') (hkept : s.outbox.retry.WellKept) : Later s s' := by
  induction h with
  | nil s => exact ⟨le_rfl, le_rfl, rfl, hkept⟩
  | cons hv _ ih => exact hv.later.trans (ih hv.later.wellKept)

lemma contacts (h : Round p visits s s') :
    s'.contacts = s.contacts ++ visits.flatMap Visit.contacts := by
  induction h with
  | nil s => simp
  | cons hv _ ih => rw [ih, hv.contacts, List.flatMap_cons, List.append_assoc]

lemma spares (h : Round p visits s s') (hid : ∀ v ∈ visits, v.peer.id ≠ id) : Spares id s s' := by
  induction h with
  | nil s => exact .refl id s
  | cons hv _ ih =>
    obtain ⟨hne, hrest⟩ := List.forall_mem_cons.mp hid
    exact (hv.elsewhere id hne.symm).trans (ih hrest)

/-- What every visit comes to is there at the end, for no peer is visited twice. -/
lemma settles (h : Round p visits s s') (hkept : s.outbox.retry.WellKept)
    (hdistinct : visits.Pairwise fun v w => v.peer.id ≠ w.peer.id) :
    ∀ v ∈ visits, Settles p v s s' ∧ v.Carries p (s.outbox.retry.queue v.peer.id) := by
  induction h with
  | nil s => exact fun _ hv => absurd hv List.not_mem_nil
  | cons hv hrest ih =>
    obtain ⟨hne, hdistinct⟩ := List.pairwise_cons.mp hdistinct
    refine List.forall_mem_cons.mpr ⟨⟨?_, hv.carries⟩, fun w hw => ?_⟩
    · exact hv.settles.spares (hrest.spares fun w hw => (hne w hw).symm)
    · have hspared := hv.elsewhere w.peer.id (hne w hw).symm
      obtain ⟨hsettles, hcarries⟩ := ih hv.later.wellKept hdistinct w hw
      exact ⟨hsettles.of_spares hv.later hspared, hspared.queue ▸ hcarries⟩

end Round

def Visit.error? (v : Visit) : Option ClusterError :=
  match v.answer with
  | .ok _ => none
  | .error e => some e

/-- The number of acceptances, or the first error. -/
def verdict (visits : List Visit) : Except ClusterError Nat :=
  match visits.findSome? Visit.error? with
  | none => .ok visits.length
  | some e => .error e

lemma verdict_eq {error : Option ClusterError} {delivered : Nat}
    (herror : error = visits.findSome? Visit.error?)
    (hcount : error = none → delivered = visits.length) :
    error.elim (.ok delivered) .error = verdict visits := by
  rw [verdict, ← herror]
  cases error with
  | none => exact congrArg Except.ok (hcount rfl)
  | some e => rfl

section

variable (k : Clients ω) (here : NodeInfo) (rerouting : Strategy) (maxHops : Nat)

/-- Every peer is visited, in turn, whatever came of the others. -/
lemma round_deliverAll (hctx : p.ctx.cancelled = false) (peers : List NodeInfo) (s : Site ω)
    (hkept : s.outbox.retry.WellKept) : ∃ visits : List Visit, visits.map Visit.peer = peers ∧
      let r := ((k.station here rerouting maxHops).deliverAll p peers).run s
      Round p visits s r.2 ∧ r.1.2 = visits.findSome? Visit.error? ∧
        (r.1.2 = none → r.1.1 = visits.length) := by
  induction peers generalizing s with
  | nil => exact ⟨[], rfl, .nil s, rfl, fun _ => rfl⟩
  | cons peer peers ih =>
    obtain ⟨v, rfl, hanswer, hvisited⟩ := visited_deliver k here rerouting maxHops hkept hctx peer
    obtain ⟨visits, rfl, hround, herror, hcount⟩ := ih _ hvisited.later.wellKept
    refine ⟨v :: visits, rfl, ?_⟩
    rw [Station.run_deliverAll_cons_eq, hanswer]
    refine ⟨.cons hvisited hround, ?_, ?_⟩
    · rw [List.findSome?_cons, Visit.error?, ← herror]
      cases v.answer <;> rfl
    · cases v.answer with
      | ok result => exact fun hnone => congrArg (· + 1) (hcount hnone)
      | error e => exact nofun

end

/-! ### Parking for marked peers -/

section

variable (k : Clients ω) (here : NodeInfo) (rerouting : Strategy) (maxHops : Nat)

structure ParkedAll (q : Push) (peers : List NodeInfo) (s s' : Site ω) : Prop where
  later : Later s s'
  timer : s'.timer = s.timer
  contacts : s'.contacts = s.contacts
  failures : s'.outbox.failures = s.outbox.failures
  parked : ∀ n ∈ peers, ParkedSince q n.id s s'
  elsewhere : ∀ id, (∀ n ∈ peers, n.id ≠ id) → s'.outbox.retry.queue id = s.outbox.retry.queue id

lemma parkedAll_forM (q : Push) (peers : List NodeInfo) (s : Site ω)
    (hkept : s.outbox.retry.WellKept) : ParkedAll q peers s
      ((peers.forM fun peer => (k.station here rerouting maxHops).park peer q).run s).2 := by
  induction peers generalizing s with
  | nil => exact ⟨⟨le_rfl, le_rfl, rfl, hkept⟩, rfl, rfl, rfl, nofun, fun _ _ => rfl⟩
  | cons n peers ih =>
    set s' : Site ω := { s with
      outbox := { s.outbox with retry := (s.outbox.retry.push n.id q).1 } } with hs'
    have hrun : (((n :: peers).forM fun peer =>
        (k.station here rerouting maxHops).park peer q).run s).2 =
          ((peers.forM fun peer => (k.station here rerouting maxHops).park peer q).run s').2 := rfl
    have hlater : Later s s' :=
      ⟨le_rfl, by rw [hs', currentSeq_push]; exact Nat.le_succ _, rfl, hkept.push⟩
    have hrest := ih s' hlater.wellKept
    rw [hrun]
    refine ⟨hlater.trans hrest.later, hrest.timer, hrest.contacts, hrest.failures, fun m hm => ?_,
      fun id hid => ?_⟩
    · by_cases hagain : ∃ m' ∈ peers, m'.id = m.id
      · obtain ⟨m', hm', heq⟩ := hagain
        exact heq ▸ (hrest.parked m' hm').later hlater
      · have hfirst : m = n := (List.mem_cons.mp hm).resolve_right fun hm => hagain ⟨m, hm, rfl⟩
        subst hfirst
        have hspared := hrest.elsewhere m.id fun m' hm' heq => hagain ⟨m', hm', heq⟩
        exact ⟨s.outbox.retry.currentSeq + 1, Nat.lt_succ_self _,
          hspared ▸ hkept.getLast?_push⟩
    · obtain ⟨hne, hrestid⟩ := List.forall_mem_cons.mp hid
      exact (hrest.elsewhere id hrestid).trans (queue_push_of_ne hkept.fits hne.symm)

end

/-- Parking the push for others makes no difference to the visits. -/
lemma Round.settles_of_parked {down : List NodeInfo} (h : Round p visits s' s'')
    (hparked : ParkedAll p.detached down s s')
    (hdistinct : visits.Pairwise fun v w => v.peer.id ≠ w.peer.id)
    (hothers : ∀ v ∈ visits, ∀ n ∈ down, n.id ≠ v.peer.id) :
    ∀ v ∈ visits, Settles p v s s'' ∧ v.Carries p (s.outbox.retry.queue v.peer.id) := by
  intro v hv
  have hspared : Spares v.peer.id s s' :=
    ⟨hparked.elsewhere _ (hothers v hv), by rw [hparked.failures]⟩
  obtain ⟨hsettles, hcarries⟩ := h.settles hparked.later.wellKept hdistinct v hv
  exact ⟨hsettles.of_spares hparked.later hspared, hspared.queue ▸ hcarries⟩

/-! ### Whom a push goes to -/

section

variable {k : Clients ω} {here : NodeInfo} {rerouting : Strategy} {maxHops : Nat}
  {peers : List NodeInfo} {ctx : OperationContext} {n : NodeInfo}

lemma mem_targets (hn : n ∈ (k.station here rerouting maxHops).targets s peers ctx) :
    n ∈ (k.station here rerouting maxHops).eligible peers ctx ∧
      (k.station here rerouting maxHops).isUnreachable s n.id = false := by
  have hcandidate := Selection.picks_allNodes.candidate (List.mem_filter.mp hn).1
  simpa using List.mem_filter.mp hcandidate

lemma exists_mem_targets (hn : n ∈ (k.station here rerouting maxHops).eligible peers ctx)
    (hmark : (k.station here rerouting maxHops).isUnreachable s n.id = false) :
    ∃ m ∈ (k.station here rerouting maxHops).targets s peers ctx, m.id = n.id := by
  have hcandidate : n ∈ ((k.station here rerouting maxHops).eligible peers ctx).filter
      fun n => !(k.station here rerouting maxHops).isUnreachable s n.id := by
    simp [hn, hmark]
  obtain ⟨hpeer, hexcluded⟩ := List.mem_filter.mp hn
  rw [Bool.and_eq_true, bne_iff_ne, bne_iff_ne] at hexcluded
  obtain ⟨m, hm, heq⟩ := Selection.exists_mem_allNodes hcandidate hexcluded.1
  refine ⟨m, List.mem_filter.mpr ⟨hm, ?_⟩, heq⟩
  rw [bne_iff_ne, heq]
  exact hexcluded.2

lemma targets_sorted : ((k.station here rerouting maxHops).targets s peers ctx).Pairwise
    fun n m => compare n.id m.id = .lt :=
  (Placement.sorted_ringOf _).filter _

end

/-- Who has hops to go pushes to the peers of the subject. -/
lemma exec_propagate {σ : Type} (st : Station σ) {subject : Subject} {deltas : Payload}
    {ctx : OperationContext} {s : σ} (hactive : ctx.cancelled = false) (hbudget : ctx.budget ≠ 0) :
    exec (st.propagate subject deltas ctx) s =
      exec (st.pushAll subject (st.peersFor s subject) deltas ctx) s := by
  simp only [Station.propagate, exec_bind, exec_get, exec_liftExcept,
    ensureActive_of_not_cancelled hactive, hbudget, if_false]

/-! ### No peer is passed over -/

inductive Fate where
  | accepted
  | parked
  | refused

/-- The push, sent in some visits, has met this fate for the node. -/
def Fate.Of (fate : Fate) (p : Push) (visits : List Visit) (s s' : Site ω) (id : NodeId) : Prop :=
  match fate with
  | accepted => ∃ v ∈ visits, v.peer.id = id ∧ v.Accepted
  | parked => ParkedSince p.detached id s s'
  | refused => ∃ v ∈ visits, v.peer.id = id ∧ v.Refused

lemma not_parkedSince {q : Push} (hkept : s.outbox.retry.WellKept)
    (hleft : ∀ t ∈ s'.outbox.retry.queue id, t ∈ s.outbox.retry.queue id) :
    ¬ ParkedSince q id s s' := by
  rintro ⟨seq, hlt, hlast⟩
  have hold := hkept.numbered id _ (hleft _ (List.mem_of_getLast? hlast))
  exact absurd hlt (Nat.not_lt.mpr hold)

/-- Who is not visited, but has the push parked, has met no other fate. -/
lemma existsUnique_fate_of_parked (hparked : ParkedSince p.detached id s s')
    (hunvisited : ∀ v ∈ visits, v.peer.id ≠ id) :
    ∃! fate : Fate, fate.Of p visits s s' id := by
  refine ⟨.parked, hparked, fun fate hfate => ?_⟩
  cases fate with
  | parked => rfl
  | accepted =>
    obtain ⟨v, hv, heq, -⟩ := hfate
    exact absurd heq (hunvisited v hv)
  | refused =>
    obtain ⟨v, hv, heq, -⟩ := hfate
    exact absurd heq (hunvisited v hv)

/-- A visit decides the fate of the push for its peer. -/
lemma existsUnique_fate_of_visit (hkept : s.outbox.retry.WellKept) (hsettles : Settles p v s s')
    (hv : v ∈ visits) (hdistinct : visits.Pairwise fun v w => v.peer.id ≠ w.peer.id) :
    ∃! fate : Fate, fate.Of p visits s s' v.peer.id := by
  have hnodup : (visits.map fun w => w.peer.id).Nodup := List.pairwise_map.mpr hdistinct
  have honly : ∀ w ∈ visits, w.peer.id = v.peer.id → w = v := fun w hw heq =>
    List.inj_on_of_nodup_map hnodup hw hv heq
  rcases v.cases with h | h | h
  · refine ⟨.accepted, ⟨v, hv, rfl, h⟩, fun fate hfate => ?_⟩
    cases fate with
    | accepted => rfl
    | parked => exact absurd hfate (not_parkedSince hkept (hsettles.left h.not_unreached))
    | refused =>
      obtain ⟨w, hw, heq, hrefused⟩ := hfate
      exact absurd (honly w hw heq ▸ hrefused) h.not_refused
  · refine ⟨.parked, hsettles.parked h, fun fate hfate => ?_⟩
    cases fate with
    | parked => rfl
    | accepted =>
      obtain ⟨w, hw, heq, haccepted⟩ := hfate
      exact absurd h (Visit.Accepted.not_unreached (honly w hw heq ▸ haccepted))
    | refused =>
      obtain ⟨w, hw, heq, hrefused⟩ := hfate
      exact absurd (honly w hw heq ▸ hrefused) h.not_refused
  · refine ⟨.refused, ⟨v, hv, rfl, h⟩, fun fate hfate => ?_⟩
    cases fate with
    | refused => rfl
    | parked =>
      exact absurd hfate (not_parkedSince hkept (hsettles.left fun h' => h'.not_refused h))
    | accepted =>
      obtain ⟨w, hw, heq, haccepted⟩ := hfate
      exact absurd h (Visit.Accepted.not_refused (honly w hw heq ▸ haccepted))

/-- If marks hold at all, the peer of a visit is marked if it could not be reached. -/
lemma markedSince_iff_unreached (hsettles : Settles p v s s')
    (hmark : s.outbox.failures.isUnreachable s.timer v.peer.id = false)
    (hrecheck : 0 < s.outbox.failures.recheck) : MarkedSince v.peer s s' ↔ v.Unreached := by
  refine ⟨?_, hsettles.marked⟩
  rintro ⟨since, hsince, hmarked⟩
  rcases v.cases with h | h | h
  · rw [hsettles.accepted h] at hmarked
    cases hmarked
  · exact h
  · -- the mark that was there before had lapsed
    rw [hsettles.refused h] at hmarked
    have hlapsed := FailureDetector.recheck_le_of_not_isUnreachable hmark hmarked
    omega

/-- As long as the new marks hold, the marked peers are the ones that could not be reached. -/
lemma isUnreachable_iff_unreached (hlater : Later s s') (hsettles : Settles p v s s')
    (hmark : s.outbox.failures.isUnreachable s.timer v.peer.id = false)
    (hsoon : s'.timer - s.timer < s.outbox.failures.recheck) :
    s'.outbox.failures.isUnreachable s'.timer v.peer.id = true ↔ v.Unreached := by
  have htimer := hlater.timer
  rw [FailureDetector.isUnreachable, hlater.recheck]
  rcases v.cases with h | h | h
  · simp [hsettles.accepted h, h.not_unreached]
  · obtain ⟨since, hsince, hmarked⟩ := hsettles.marked h
    have hholds : s'.timer - since < s.outbox.failures.recheck := by omega
    simp [hmarked, hholds, h]
  · have hreached : ¬ v.Unreached := fun h' => h'.not_refused h
    rw [hsettles.refused h]
    cases hget : s.outbox.failures.marks.get? v.peer.id with
    | none => simp [hreached]
    | some mark =>
      have hlapsed := FailureDetector.recheck_le_of_not_isUnreachable hmark hget
      simp only [Option.any_some, decide_eq_true_eq, hreached, iff_false]
      omega

section

variable (k : Clients ω) (here : NodeInfo) (rerouting : Strategy) (maxHops : Nat)

/-- A push is first parked for the marked peers, and then the others are visited. -/
lemma exists_round_propagate {ctx : OperationContext} (hkept : s.outbox.retry.WellKept)
    (hactive : ctx.cancelled = false) (hbudget : 0 < ctx.budget) (subject : Subject)
    (deltas : Payload) :
    let st := k.station here rerouting maxHops
    let peers := st.peersFor s subject
    let p := st.outgoing subject deltas ctx
    let r := exec (st.propagate subject deltas ctx) s
    ∃ (visits : List Visit) (s₁ : Site ω), visits.map Visit.peer = st.targets s peers ctx ∧
      ParkedAll p.detached (st.parkedFor s peers ctx) s s₁ ∧ Round p visits s₁ r.2 ∧
      r.1 = verdict visits := by
  intro st peers p r
  set s₁ := (((st.parkedFor s peers ctx).forM fun peer => st.park peer p.detached).run s).2
  have hparked : ParkedAll p.detached (st.parkedFor s peers ctx) s s₁ :=
    parkedAll_forM k here rerouting maxHops p.detached _ s hkept
  obtain ⟨visits, hpeers, hround, herror, hcount⟩ := round_deliverAll k here rerouting maxHops
    (p := p) hactive (st.targets s peers ctx) s₁ hparked.later.wellKept
  have hrun : r = (verdict visits, ((st.deliverAll p (st.targets s peers ctx)).run s₁).2) := by
    have hpush : r = exec (st.pushAll subject peers deltas ctx) s :=
      exec_propagate st hactive hbudget.ne'
    rw [hpush]
    exact (st.exec_pushAll_eq rfl).trans (Prod.ext (verdict_eq herror hcount) rfl)
  rw [hrun]
  exact ⟨visits, s₁, hpeers, hparked, hround, rfl⟩

end

/-- **No peer is passed over in silence.** Whatever is marked and parked, and whatever the peers
answer, each eligible peer has accepted the push, or it is the newest that is parked for the peer,
or the peer has refused it; one of these, and only one. Nobody else is visited, and nothing is
parked for anybody else. A peer that was marked gets no visit. If marks hold at all, a peer that was
visited is marked if and only if it could not be reached, and it counts as unreachable as long as
the mark holds. The push comes to the number of acceptances if no visit met an error, and else to
the error that was met first. -/
theorem no_peer_is_passed_over (k : Clients ω) (here : NodeInfo) (rerouting : Strategy)
    (maxHops : Nat) (subject : Subject) (deltas : Payload) (ctx : OperationContext) (s : Site ω)
    (hkept : s.outbox.retry.WellKept) (hactive : ctx.cancelled = false) (hbudget : 0 < ctx.budget) :
    let st := k.station here rerouting maxHops
    let eligible := st.eligible (st.peersFor s subject) ctx
    let p := st.outgoing subject deltas ctx
    let r := exec (st.propagate subject deltas ctx) s
    ∃ visits : List Visit,
      r.2.contacts = s.contacts ++ visits.flatMap Visit.contacts ∧
      visits.Pairwise (fun v w => compare v.peer.id w.peer.id = .lt) ∧
      r.1 = verdict visits ∧
      (∀ v ∈ visits, v.peer ∈ eligible ∧ st.isUnreachable s v.peer.id = false ∧
        v.Carries p (s.outbox.retry.queue v.peer.id) ∧
        (0 < s.outbox.failures.recheck → (MarkedSince v.peer s r.2 ↔ v.Unreached)) ∧
        (r.2.timer - s.timer < s.outbox.failures.recheck →
          (st.isUnreachable r.2 v.peer.id = true ↔ v.Unreached))) ∧
      (∀ n ∈ eligible, ∃! fate : Fate, fate.Of p visits s r.2 n.id) ∧
      ∀ id, (∀ n ∈ eligible, n.id ≠ id) → r.2.outbox.retry.queue id = s.outbox.retry.queue id := by
  intro st eligible p r
  obtain ⟨visits, s₁, hpeers, hparked, hround, hverdict⟩ :=
    exists_round_propagate k here rerouting maxHops hkept hactive hbudget subject deltas
  have hsorted : visits.Pairwise fun v w => compare v.peer.id w.peer.id = .lt := by
    have htargets : (st.targets s (st.peersFor s subject) ctx).Pairwise
        fun n m => compare n.id m.id = .lt := targets_sorted
    rw [← hpeers] at htargets
    exact List.pairwise_map.mp htargets
  have hdistinct : visits.Pairwise fun v w => v.peer.id ≠ w.peer.id :=
    hsorted.imp Key.Before.ne
  have hlater : Later s r.2 := hparked.later.trans (hround.later hparked.later.wellKept)
  have htarget : ∀ v ∈ visits, v.peer ∈ eligible ∧ st.isUnreachable s v.peer.id = false :=
    fun v hv => mem_targets (hpeers ▸ List.mem_map_of_mem hv)
  have hsettles := hround.settles_of_parked hparked hdistinct fun v hv n hn heq => by
    -- who is visited is not marked
    have hmarked := (List.mem_filter.mp hn).2
    rw [heq, (htarget v hv).2] at hmarked
    cases hmarked
  refine ⟨visits, by rw [hround.contacts, hparked.contacts], hsorted, hverdict, fun v hv => ?_,
    fun n hn => ?_, fun id hid => ?_⟩
  · obtain ⟨heligible, hmark⟩ := htarget v hv
    obtain ⟨hv, hcarries⟩ := hsettles v hv
    exact ⟨heligible, hmark, hcarries, markedSince_iff_unreached hv hmark,
      isUnreachable_iff_unreached hlater hv hmark⟩
  · cases hmark : st.isUnreachable s n.id with
    | true =>
      have hunvisited : ∀ v ∈ visits, v.peer.id ≠ n.id := fun v hv heq => by
        rw [← heq, (htarget v hv).2] at hmark
        cases hmark
      have hdown := hparked.parked n (List.mem_filter.mpr ⟨hn, hmark⟩)
      exact existsUnique_fate_of_parked (hdown.spares (hround.spares hunvisited)) hunvisited
    | false =>
      obtain ⟨m, hm, heq⟩ := exists_mem_targets hn hmark
      rw [← hpeers] at hm
      obtain ⟨v, hv, rfl⟩ := List.mem_map.mp hm
      exact heq ▸ existsUnique_fate_of_visit hkept (hsettles v hv).1 hv hdistinct
  · have hnobody : ∀ n ∈ st.parkedFor s (st.peersFor s subject) ctx, n.id ≠ id :=
      fun n hn => hid n (List.mem_filter.mp hn).1
    have hspared := hround.spares fun v hv => hid v.peer (htarget v hv).1
    exact hspared.queue.trans (hparked.elsewhere id hnobody)

/-- Clients of which one finds its peer down and another one's peer does not understand it. -/
def downAndBroken : Clients Unit where
  find _ clients := (.ok (), clients)
  call peer _ clients :=
    let answer : Except ClusterError MergeResult :=
      if peer.id = "b" then .error (.unreachable "b" "down")
      else if peer.id = "c" then .error (.violation "broken")
      else .ok .updated
    (answer, clients, 0)

def fourPeers : Site Unit where
  clients := ()
  timer := 0
  distributor :=
    { Distributor.ofThreshold Placement.ringDistribution 0.1 with
      nodes := ["a", "b", "c", "d", "e"].map fun id => ⟨id, id⟩ }
  outbox := ⟨(FailureDetector.ofRecheck 1000).reportUnreachable 0 ⟨"d", "d"⟩, .ofCapacity 2⟩
  contacts := []

def nodeAmongFour : Station (Site Unit) := downAndBroken.station ⟨"e", "e"⟩ Selection.allNodes 3

def pushedToFour : Except ClusterError Nat × Site Unit :=
  exec (nodeAmongFour.propagate (.metadata .replicaSizes) ByteArray.empty (.fresh "t" 1)) fourPeers

/-- The push comes to the error of the peer that is down, but no peer is without its fate. -/
theorem every_fate_among_four :
    pushedToFour.1 = .error (.unreachable "b" "down") ∧ ∃ visits,
      pushedToFour.1 = verdict visits ∧ ∀ id ∈ ["a", "b", "c", "d"], ∃! fate : Fate,
        fate.Of (nodeAmongFour.outgoing (.metadata .replicaSizes) ByteArray.empty (.fresh "t" 1))
          visits fourPeers pushedToFour.2 id := by
  obtain ⟨visits, -, -, hverdict, -, hfates, -⟩ :=
    no_peer_is_passed_over downAndBroken ⟨"e", "e"⟩ Selection.allNodes 3 (.metadata .replicaSizes)
      ByteArray.empty (.fresh "t" 1) fourPeers (wellKept_ofCapacity 2) rfl Nat.one_pos
  have hpeers : ∀ id ∈ ["a", "b", "c", "d"], (⟨id, id⟩ : NodeInfo) ∈ nodeAmongFour.eligible
      (nodeAmongFour.peersFor fourPeers (.metadata .replicaSizes)) (.fresh "t" 1) := by
    decide +kernel
  have htargets : nodeAmongFour.targets fourPeers
      (nodeAmongFour.peersFor fourPeers (.metadata .replicaSizes)) (.fresh "t" 1) =
        ["a", "b", "c"].map fun id => ⟨id, id⟩ := by
    have hunmarked : ((nodeAmongFour.eligible (nodeAmongFour.peersFor fourPeers
        (.metadata .replicaSizes)) (.fresh "t" 1)).filter fun n =>
          !nodeAmongFour.isUnreachable fourPeers n.id) =
            ["a", "b", "c"].map fun id => ⟨id, id⟩ := by
      decide +kernel
    have hpicked : nodeAmongFour.propagation nodeAmongFour.here
        (["a", "b", "c"].map fun id => ⟨id, id⟩) = ["a", "b", "c"].map fun id => ⟨id, id⟩ := by
      change Selection.distinct (Selection.sort (Selection.others _ _)) = _
      rw [Selection.sort, List.mergeSort_of_pairwise (by decide)]
      decide +kernel
    rw [Station.targets, hunmarked, hpicked]
    rfl
  have herror : pushedToFour.1 = .error (.unreachable "b" "down") := by
    rw [pushedToFour, exec_propagate _ rfl (by decide), nodeAmongFour.exec_pushAll_eq rfl, htargets]
    decide +kernel
  exact ⟨herror, visits, hverdict, fun id hid => hfates ⟨id, id⟩ (hpeers id hid)⟩

end Propagation

end DeltaRing
