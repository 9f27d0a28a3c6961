import DeltaRing.Proofs.Cluster.Evolution
import DeltaRing.Proofs.Node.Merging

/-!
How far a batch spreads.

A node that applies an operation pushes a batch of deltas to some peers, and a peer to which it is
news pushes it on to peers of its own choice. What a node has heard is not news to it again, so it
pushes the batch on once at most, and no more calls are made than there are pairs of nodes, whatever
the nodes believe of placement and of each other. The budget of the operation bounds how many calls
the batch travels, and every call carries what is left of it.
-/

namespace DeltaRing

open DeltaRing.Action

structure Forward where
  seat : Seat
  here : NodeInfo
  /-- The node that it has got the batch from, if from any. -/
  source : Option NodeId
  /-- How many calls the batch has travelled when it arrives at the peers. -/
  depth : Nat
  /-- What the calls carry. -/
  ctx : OperationContext
  peers : List NodeInfo

/-- A forward goes to nodes of a list, to each once, neither to the node itself nor to the one that
the batch has come from. Its calls name the node. -/
structure Forward.Sound (ids : List NodeId) (f : Forward) : Prop where
  here : f.here.id ∈ ids
  named : ∀ w ∈ f.peers, w.id ∈ ids
  notBack : ∀ w ∈ f.peers, w.id ≠ f.here.id ∧ f.source ≠ some w.id
  distinct : f.peers.Pairwise fun w w' => w.id ≠ w'.id
  origin : f.ctx.origin = some f.here.id

namespace Cluster

/-- What a node makes of a batch that it has got with a context. -/
def forwardOf (c : Cluster) (seat : Seat) (n : Node) (r : ReplicaId) (ctx : OperationContext)
    (depth : Nat) : Forward where
  seat
  here := n.info
  source := ctx.origin
  depth
  ctx := ctx.forwarded n.info.id
  peers := (station push seat n).targets c (n.distributor.writeReplicas r) ctx

/-- The outbox of one node may have changed, and nothing else. -/
structure Noted (seat : Seat) (c c' : Cluster) : Prop where
  world : c' = { c with nodes := c'.nodes }
  lasting : c'.lasting = c.lasting
  others : ∀ seat' ≠ seat, c'.nodes.get? seat' = c.nodes.get? seat'

/-- How a batch spreads from a node that calls peers in turn: all forwards that this sets off, each
before those that it sets off itself. -/
inductive Cascade (r : ReplicaId) (batch : Payload) :
    Forward → List NodeInfo → Cluster → List Forward → Cluster → Prop
  | done {f : Forward} {c c' : Cluster} : Noted f.seat c c' → Cascade r batch f [] c [] c'
  /-- Nobody serves where the peer should be, or the network is down. -/
  | unreached {f : Forward} {w : NodeInfo} {ws : List NodeInfo} {log : List Forward}
    {e : ClusterError} {c c₀ c₁ c' : Cluster} :
    Noted f.seat c c₀ → exec (connect f.here.address w.address f.ctx) c₀ = (.error e, c₁) →
    Cascade r batch f ws c₁ log c' → Cascade r batch f (w :: ws) c log c'
  /-- The batch is no news to the peer, or it has no budget to go on with. -/
  | kept {f : Forward} {w : NodeInfo} {ws : List NodeInfo} {log : List Forward} {seat : Seat}
    {result : Except ClusterError MergeResult} {c c₀ c₁ c₂ c' : Cluster} :
    Noted f.seat c c₀ → exec (connect f.here.address w.address f.ctx) c₀ = (.ok seat, c₁) →
    exec (act seat (Node.merge (.replica r) batch)) c₁ = (result, c₂) →
    (result = .ok .updated → f.ctx.budget = 0) →
    Cascade r batch f ws c₂ log c' → Cascade r batch f (w :: ws) c log c'
  /-- The peer forwards the batch before the next peer is called. -/
  | passedOn {f g : Forward} {w : NodeInfo} {ws : List NodeInfo} {log log' : List Forward}
    {seat : Seat} {n : Node} {c c₀ c₁ c₂ c₃ c' : Cluster} :
    Noted f.seat c c₀ → exec (connect f.here.address w.address f.ctx) c₀ = (.ok seat, c₁) →
    exec (act seat (Node.merge (.replica r) batch)) c₁ = (.ok .updated, c₂) → 0 < f.ctx.budget →
    c₂.nodes.get? seat = some n → g = forwardOf c₂ seat n r f.ctx (f.depth + 1) →
    Cascade r batch g g.peers c₂ log c₃ → Cascade r batch f ws c₃ log' c' →
    Cascade r batch f (w :: ws) c (g :: log ++ log') c'

variable {r : ReplicaId} {batch : Payload} {ids : List NodeId} {f g : Forward}
  {ws : List NodeInfo} {log log' : List Forward} {c c₁ c' : Cluster} {seat next : Seat} {n : Node}

/-! ### Notes -/

instance : IsPreorder Cluster (Noted seat) where
  refl _ := ⟨rfl, rfl, fun _ _ => rfl⟩
  trans _ c₁ _ h h' := by
    refine ⟨?_, h'.lasting.trans h.lasting, fun s hs => (h'.others s hs).trans (h.others s hs)⟩
    rw [h'.world, h.world]

namespace Noted

lemma services (h : Noted seat c c') : c'.services = c.services := by
  rw [h.world]

lemma callsTo (h : Noted seat c c') (address : String) :
    c'.callsTo address = c.callsTo address := by
  rw [h.world]
  rfl

lemma get? (h : Noted seat c c') (hn : c.nodes.get? seat = some n) :
    ∃ outbox, c'.nodes.get? seat = some { n with outbox } := by
  obtain ⟨m, hm, hlasting⟩ := exists_node_of_lasting_eq h.lasting hn
  refine ⟨m.outbox, ?_⟩
  rw [hm, Option.some.injEq]
  exact congrArg (fun x : Node => { x with outbox := m.outbox }) hlasting

end Noted

lemma Cascade.noted (hnoted : Noted f.seat c c₁) (h : Cascade r batch f ws c₁ log c') :
    Cascade r batch f ws c log c' := by
  cases h with
  | done hafter => exact .done (trans_of (Noted f.seat) hnoted hafter)
  | unreached hbefore hconnect hrest =>
    exact .unreached (trans_of (Noted f.seat) hnoted hbefore) hconnect hrest
  | kept hbefore hconnect hmerge hquiet hrest =>
    exact .kept (trans_of (Noted f.seat) hnoted hbefore) hconnect hmerge hquiet hrest
  | passedOn hbefore hconnect hmerge hbudget hn hg hnested hrest =>
    exact .passedOn (trans_of (Noted f.seat) hnoted hbefore) hconnect hmerge hbudget hn hg hnested
      hrest

/-! ### Who has heard the batch -/

def HeardAt (r : ReplicaId) (batch : Payload) (c : Cluster) (seat : Seat) : Prop :=
  ∃ n, c.nodes.get? seat = some n ∧ n.Holds r (Node.Heard batch)

def owes (c : Cluster) (seat : Seat) (peer : NodeId) : List (TaggedPush Push) :=
  match c.nodes.get? seat with
  | some n => n.outbox.retry.queue peer
  | none => []

lemma owes_of_get? (hn : c.nodes.get? seat = some n) (peer : NodeId) :
    c.owes seat peer = n.outbox.retry.queue peer := by
  simp only [owes, hn]

/-- Plans name nodes with ids of a list, and a node that has not heard the batch owes nothing. -/
structure Calm (ids : List NodeId) (r : ReplicaId) (batch : Payload) (c : Cluster) : Prop where
  placed : ∀ seat n, c.nodes.get? seat = some n → n.Placed ids r
  owesNothing : ∀ seat, ¬HeardAt r batch c seat → ∀ peer, c.owes seat peer = []

/-- What one thing after another in a cascade has made of the cluster: the nodes that forwarded the
batch had not heard it before. -/
structure Spread (ids : List NodeId) (r : ReplicaId) (batch : Payload) (seat : Seat) (c : Cluster)
    (log : List Forward) (c' : Cluster) : Prop where
  calm : Calm ids r batch c'
  seats : ∀ seat' n', c'.nodes.get? seat' = some n' →
    ∃ n, c.nodes.get? seat' = some n ∧ n.info = n'.info
  heard : ∀ seat', HeardAt r batch c seat' → HeardAt r batch c' seat'
  kept : ∀ seat' ≠ seat, HeardAt r batch c seat' → c'.nodes.get? seat' = c.nodes.get? seat'
  once : (log.map Forward.seat).Nodup
  news : ∀ g ∈ log, (∃ n, c.nodes.get? g.seat = some n ∧ n.info = g.here) ∧
    ¬HeardAt r batch c g.seat ∧ HeardAt r batch c' g.seat
  sound : ∀ g ∈ log, g.Sound ids

/-- One thing after another, be it the turn of the same node or of one to which the batch is
news. -/
lemma Spread.append_of (h : Spread ids r batch seat c log c₁)
    (h' : Spread ids r batch next c₁ log' c') (hturn : next = seat ∨ ¬HeardAt r batch c next) :
    Spread ids r batch seat c (log ++ log') c' where
  calm := h'.calm
  seats s n' hn' := by
    obtain ⟨n, hn, hinfo⟩ := h'.seats s n' hn'
    obtain ⟨m, hm, hinfo'⟩ := h.seats s n hn
    exact ⟨m, hm, hinfo'.trans hinfo⟩
  heard s hs := h'.heard s (h.heard s hs)
  kept s hne hs := by
    have hother : s ≠ next := by
      rintro rfl
      exact hturn.elim hne (absurd hs)
    exact (h'.kept s hother (h.heard s hs)).trans (h.kept s hne hs)
  once := by
    rw [List.map_append, List.nodup_append']
    refine ⟨h.once, h'.once, fun s hs hs' => ?_⟩
    obtain ⟨g, hg, rfl⟩ := List.mem_map.mp hs
    obtain ⟨g', hg', heq⟩ := List.mem_map.mp hs'
    exact (h'.news g' hg').2.1 (heq ▸ (h.news g hg).2.2)
  news g hg := by
    rcases List.mem_append.mp hg with hg | hg
    · obtain ⟨hthere, hnews, hheard⟩ := h.news g hg
      exact ⟨hthere, hnews, h'.heard _ hheard⟩
    · obtain ⟨⟨n, hn, hinfo⟩, hnews, hheard⟩ := h'.news g hg
      obtain ⟨m, hm, hinfo'⟩ := h.seats _ n hn
      exact ⟨⟨m, hm, hinfo'.trans hinfo⟩, fun hs => hnews (h.heard _ hs), hheard⟩
  sound g hg := (List.mem_append.mp hg).elim (h.sound g) (h'.sound g)

lemma Spread.append (h : Spread ids r batch seat c log c₁)
    (h' : Spread ids r batch seat c₁ log' c') : Spread ids r batch seat c (log ++ log') c' :=
  h.append_of h' (.inl rfl)

lemma sound_forwardOf (hn : n.Placed ids r) (c : Cluster) (seat : Seat) (ctx : OperationContext)
    (depth : Nat) : (forwardOf c seat n r ctx depth).Sound ids := by
  have hpicked : ∀ w ∈ (forwardOf c seat n r ctx depth).peers,
      w ∈ n.propagation n.info _ ∧ ctx.origin ≠ some w.id := fun w hw =>
    ⟨(List.mem_filter.mp hw).1, by simpa using (List.mem_filter.mp hw).2⟩
  refine ⟨hn.here, fun w hw => hn.planned w ?_, fun w hw => ?_, ?_, rfl⟩
  · have hcandidate := hn.picks.candidate (hpicked w hw).1
    exact List.mem_of_mem_filter (List.mem_of_mem_filter hcandidate)
  · exact ⟨hn.picks.notHere (hpicked w hw).1, (hpicked w hw).2⟩
  · exact (hn.picks.distinct _ _).filter _

/-- A node to which the batch was news decides to forward it. -/
lemma Spread.forward (h : Spread ids r batch seat c [] c') (hnews : ¬HeardAt r batch c next)
    (hheard : HeardAt r batch c' next) (hn : c'.nodes.get? next = some n) {ctx : OperationContext}
    {depth : Nat} (hg : g = forwardOf c' next n r ctx depth) :
    Spread ids r batch seat c [g] c' where
  calm := h.calm
  seats := h.seats
  heard := h.heard
  kept := h.kept
  once := List.nodup_singleton _
  news := by
    obtain ⟨m, hm, hinfo⟩ := h.seats next n hn
    subst hg
    exact List.forall_mem_singleton.mpr ⟨⟨m, hm, hinfo⟩, hnews, hheard⟩
  sound := by
    subst hg
    exact List.forall_mem_singleton.mpr
      (sound_forwardOf (h.calm.placed next n hn) c' next ctx depth)

lemma Calm.spread_refl (hc : Calm ids r batch c) : Spread ids r batch seat c [] c :=
  ⟨hc, fun _ n hn => ⟨n, hn, rfl⟩, fun _ h => h, fun _ _ _ => rfl, .nil, nofun, nofun⟩

lemma HeardAt.holds (h : HeardAt r batch c seat) (hn : c.nodes.get? seat = some n) :
    n.Holds r (Node.Heard batch) := by
  obtain ⟨m, hm, hheard⟩ := h
  rw [hn, Option.some.injEq] at hm
  exact hm ▸ hheard

/-- One node changes, either the one whose turn it is or one that has not heard the batch. -/
lemma Calm.spread_change (hc : Calm ids r batch c) {n' : Node}
    (hn : c.nodes.get? next = some n) (hn' : c'.nodes.get? next = some n')
    (hothers : ∀ s ≠ next, c'.nodes.get? s = c.nodes.get? s)
    (hplaced : n'.Placed ids r) (hinfo : n'.info = n.info)
    (hheard : n.Holds r (Node.Heard batch) → n'.Holds r (Node.Heard batch))
    (howes : ¬n'.Holds r (Node.Heard batch) → n'.outbox = n.outbox)
    (hturn : next = seat ∨ ¬n.Holds r (Node.Heard batch)) :
    Spread ids r batch seat c [] c' := by
  have hkeeps (s : Seat) (h : HeardAt r batch c s) : HeardAt r batch c' s := by
    by_cases hs : s = next
    · subst hs
      exact ⟨n', hn', hheard (h.holds hn)⟩
    · obtain ⟨m, hm, hm'⟩ := h
      exact ⟨m, (hothers s hs).trans hm, hm'⟩
  refine ⟨⟨fun s m hm => ?_, fun s hs peer => ?_⟩, fun s m hm => ?_, hkeeps,
    fun s hs h => hothers s ?_, .nil, nofun, nofun⟩
  · by_cases hs : s = next
    · subst hs
      rw [hn', Option.some.injEq] at hm
      exact hm ▸ hplaced
    · exact hc.placed s m ((hothers s hs).symm.trans hm)
  · have hbefore := hc.owesNothing s (fun h => hs (hkeeps s h)) peer
    by_cases hnext : s = next
    · subst hnext
      rwa [owes_of_get? hn', howes fun h => hs ⟨n', hn', h⟩, ← owes_of_get? hn]
    · rwa [owes, hothers s hnext]
  · by_cases hs : s = next
    · subst hs
      rw [hn', Option.some.injEq] at hm
      exact ⟨n, hn, hm ▸ hinfo.symm⟩
    · exact ⟨m, (hothers s hs).symm.trans hm, rfl⟩
  · rintro rfl
    exact hturn.elim hs fun hfresh => hfresh (h.holds hn)

lemma Calm.spread_noted (hc : Calm ids r batch c) (hheard : HeardAt r batch c seat)
    (hnoted : Noted seat c c') : Spread ids r batch seat c [] c' := by
  obtain ⟨n, hn, hholds⟩ := hheard
  obtain ⟨outbox, hn'⟩ := hnoted.get? hn
  have hholds' : { n with outbox }.Holds r (Node.Heard batch) := hholds.of_hosted fun _ hh => hh
  exact hc.spread_change hn hn' hnoted.others
    ((hc.placed seat n hn).setOutbox outbox) rfl (fun _ => hholds') (absurd hholds') (.inl rfl)

lemma eq_of_exec_connect {caller callee : String} {ctx : OperationContext}
    {result : Except ClusterError Seat} (hctx : ctx.cancelled = false)
    (hconnect : exec (connect caller callee ctx) c = (result, c')) :
    c' = { c with calls := c.calls.alter callee fun n => n.getD 0 + 1 } := by
  have hactive := ensureActive_of_not_cancelled hctx
  simp only [connect, exec_bind, exec_liftExcept, hactive, exec_modify, exec_get] at hconnect
  split at hconnect
  · split at hconnect <;> exact (congrArg Prod.snd hconnect).symm
  · exact (congrArg Prod.snd hconnect).symm

lemma Calm.spread_connect (hc : Calm ids r batch c) {caller callee : String}
    {ctx : OperationContext} {result : Except ClusterError Seat} (hctx : ctx.cancelled = false)
    (hconnect : exec (connect caller callee ctx) c = (result, c')) :
    Spread ids r batch seat c [] c' := by
  rw [eq_of_exec_connect hctx hconnect]
  exact ⟨⟨hc.placed, hc.owesNothing⟩, fun _ n hn => ⟨n, hn, rfl⟩, fun _ h => h, fun _ _ _ => rfl,
    .nil, nofun, nofun⟩

lemma Calm.spread_merge (hc : Calm ids r batch c) {result : Except ClusterError MergeResult}
    (hmerge : exec (act next (Node.merge (.replica r) batch)) c = (result, c')) :
    Spread ids r batch seat c [] c' := by
  cases hn : c.nodes.get? next with
  | none =>
    rw [exec_act_gone hn] at hmerge
    cases hmerge
    exact hc.spread_refl
  | some n =>
    have hplaced := hc.placed next n hn
    rw [exec_act hn] at hmerge
    obtain rfl := (congrArg Prod.snd hmerge).symm
    by_cases hheard : n.Holds r (Node.Heard batch)
    · obtain ⟨_, hexec, -⟩ := Node.exec_merge_of_heard hplaced.named hheard
      rw [hexec, SortedMap.insert_of_get? hn]
      exact hc.spread_refl
    · obtain ⟨hplaced', houtbox⟩ := hplaced.merge batch
      exact hc.spread_change hn SortedMap.get?_insert_self
        (fun s hs => SortedMap.get?_insert_of_ne hs) hplaced'
        (Node.keeps_merge (.replica r) batch n).info (absurd · hheard)
        (fun _ => houtbox) (.inr hheard)

/-- A batch is news only to a node that has not heard it before, and it has heard it then. -/
lemma Calm.news_of_merge (hc : Calm ids r batch c)
    (hmerge : exec (act next (Node.merge (.replica r) batch)) c = (.ok .updated, c')) :
    ¬HeardAt r batch c next ∧ HeardAt r batch c' next := by
  cases hn : c.nodes.get? next with
  | none =>
    rw [exec_act_gone hn] at hmerge
    cases hmerge
  | some n =>
    have hnamed := (hc.placed next n hn).named
    rw [exec_act hn, Prod.mk.injEq] at hmerge
    obtain ⟨hresult, rfl⟩ := hmerge
    refine ⟨fun hheard => ?_, ?_⟩
    · obtain ⟨_, hexec, hstale⟩ := Node.exec_merge_of_heard hnamed (hheard.holds hn)
      rw [hexec] at hresult
      exact hstale hresult
    · obtain ⟨n₁, -, ⟨e, hexec⟩ | ⟨h, result, hexec, -, hheard⟩⟩ :=
        Node.exec_merge_replica hnamed r batch
      · rw [hexec] at hresult
        cases hresult
      · rw [hexec]
        exact ⟨_, SortedMap.get?_insert_self, hheard⟩

/-- Whatever a cascade does, it only spreads the batch. -/
lemma Cascade.spread (h : Cascade r batch f ws c log c') (hc : Calm ids r batch c)
    (hheard : HeardAt r batch c f.seat) (hctx : f.ctx.cancelled = false) :
    Spread ids r batch f.seat c log c' := by
  induction h with
  | done hnoted => exact hc.spread_noted hheard hnoted
  | unreached hnoted hconnect _ ih =>
    have h₀ := hc.spread_noted hheard hnoted
    have h₁ := h₀.append (h₀.calm.spread_connect hctx hconnect)
    exact h₁.append (ih h₁.calm (h₁.heard _ hheard) hctx)
  | kept hnoted hconnect hmerge _ _ ih =>
    have h₀ := hc.spread_noted hheard hnoted
    have h₁ := h₀.append (h₀.calm.spread_connect hctx hconnect)
    have h₂ := h₁.append (h₁.calm.spread_merge hmerge)
    exact h₂.append (ih h₂.calm (h₂.heard _ hheard) hctx)
  | @passedOn f _ _ _ _ _ _ _ _ _ c₁ c₂ _ _ hnoted hconnect hmerge _ hn hg _ _ ihnested ih =>
    have h₀ := hc.spread_noted hheard hnoted
    have h₁ := h₀.append (h₀.calm.spread_connect hctx hconnect)
    have hmerged : Spread ids r batch f.seat c₁ [] c₂ := h₁.calm.spread_merge hmerge
    obtain ⟨hnews, hheard₂⟩ := h₁.calm.news_of_merge hmerge
    have hforward := hmerged.forward hnews hheard₂ hn hg
    subst hg
    have h₃ := h₁.append (hforward.append_of (ihnested hmerged.calm hheard₂ hctx) (.inr hnews))
    exact h₃.append (ih h₃.calm (h₃.heard _ hheard) hctx)

/-! ### Budgets, sources and calls -/

/-- A forward comes of a call of another: it is made where the call arrives, has the batch from the
caller, and is one call further from the origin. -/
structure Caused (services : SortedMap String Seat) (f g : Forward) : Prop where
  source : g.source = f.ctx.origin
  depth : g.depth = f.depth + 1
  called : ∃ w ∈ f.peers, services.get? w.address = some g.seat

lemma Cascade.budget (h : Cascade r batch f ws c log c') : ∀ g ∈ log,
    f.depth < g.depth ∧ g.depth + g.ctx.budget = f.depth + f.ctx.budget := by
  induction h with
  | done _ => nofun
  | unreached _ _ _ ih => exact ih
  | kept _ _ _ _ _ ih => exact ih
  | @passedOn f g _ _ log log' _ _ _ _ _ _ _ _ _ _ _ hbudget _ hg _ _ ihnested ih =>
    have hstep : g.depth = f.depth + 1 ∧ g.ctx.budget = f.ctx.budget - 1 := by
      subst hg
      exact ⟨rfl, rfl⟩
    refine List.forall_mem_cons.mpr ⟨by omega, fun g' hg' => ?_⟩
    rcases List.mem_append.mp hg' with hg' | hg'
    · have := ihnested g' hg'
      omega
    · exact ih g' hg'

lemma world_of_exec_act {α : Type} {a : Action Node α} {result : Except ClusterError α}
    (hexec : exec (act seat a) c = (result, c')) :
    c'.services = c.services ∧ ∀ address, c'.callsTo address = c.callsTo address := by
  cases hn : c.nodes.get? seat with
  | none =>
    rw [exec_act_gone hn] at hexec
    cases hexec
    exact ⟨rfl, fun _ => rfl⟩
  | some n =>
    rw [exec_act hn] at hexec
    obtain rfl := (congrArg Prod.snd hexec).symm
    exact ⟨rfl, fun _ => rfl⟩

lemma callsTo_of_exec_connect {caller callee : String} {ctx : OperationContext}
    {result : Except ClusterError Seat} (hctx : ctx.cancelled = false)
    (hconnect : exec (connect caller callee ctx) c = (result, c')) (address : String) :
    c'.callsTo address = c.callsTo address + if callee = address then 1 else 0 := by
  rw [eq_of_exec_connect hctx hconnect]
  simp only [callsTo, SortedMap.getD]
  split
  · rename_i heq
    subst heq
    rw [SortedMap.get?_alter_self]
    rfl
  · rename_i hne
    rw [SortedMap.get?_alter_of_ne (Ne.symm hne)]
    rfl

/-- The calls of a cascade are those that the cluster counts. -/
lemma Cascade.callsTo (h : Cascade r batch f ws c log c') (hctx : f.ctx.cancelled = false)
    (address : String) :
    c'.callsTo address = c.callsTo address +
      ((ws ++ log.flatMap Forward.peers).map NodeInfo.address).count address := by
  induction h with
  | done hnoted => simpa using hnoted.callsTo address
  | unreached hnoted hconnect _ ih =>
    have h₀ := hnoted.callsTo address
    have h₁ := callsTo_of_exec_connect hctx hconnect address
    have hrest := ih hctx
    simp only [List.map_append, List.map_cons, List.count_append, List.count_cons,
      beq_iff_eq] at hrest ⊢
    omega
  | kept hnoted hconnect hmerge _ _ ih =>
    have h₀ := hnoted.callsTo address
    have h₁ := callsTo_of_exec_connect hctx hconnect address
    have h₂ := (world_of_exec_act hmerge).2 address
    have hrest := ih hctx
    simp only [List.map_append, List.map_cons, List.count_append, List.count_cons,
      beq_iff_eq] at hrest ⊢
    omega
  | passedOn hnoted hconnect hmerge _ _ hg _ _ ihnested ih =>
    have h₀ := hnoted.callsTo address
    have h₁ := callsTo_of_exec_connect hctx hconnect address
    have h₂ := (world_of_exec_act hmerge).2 address
    have hnested := ihnested (hg ▸ hctx)
    have hrest := ih hctx
    simp only [List.map_append, List.map_cons, List.count_append, List.count_cons, beq_iff_eq,
      List.flatMap_cons, List.flatMap_append, List.cons_append] at hnested hrest ⊢
    omega

lemma services_of_exec_connect {caller callee : String} {ctx : OperationContext}
    {result : Except ClusterError Seat} (hctx : ctx.cancelled = false)
    (hconnect : exec (connect caller callee ctx) c = (result, c')) :
    c'.services = c.services ∧ ∀ seat, result = .ok seat → c.services.get? callee = some seat := by
  refine ⟨by rw [eq_of_exec_connect hctx hconnect], ?_⟩
  rintro seat rfl
  simp only [connect, exec_bind, exec_liftExcept, ensureActive_of_not_cancelled hctx, exec_modify,
    exec_get] at hconnect
  split at hconnect
  · split at hconnect
    · rename_i hserved
      cases hconnect
      exact hserved
    · cases hconnect
  · cases hconnect

lemma Cascade.services (h : Cascade r batch f ws c log c') (hctx : f.ctx.cancelled = false) :
    c'.services = c.services := by
  induction h with
  | done hnoted => exact hnoted.services
  | unreached hnoted hconnect _ ih =>
    rw [ih hctx, (services_of_exec_connect hctx hconnect).1, hnoted.services]
  | kept hnoted hconnect hmerge _ _ ih =>
    rw [ih hctx, (world_of_exec_act hmerge).1, (services_of_exec_connect hctx hconnect).1,
      hnoted.services]
  | passedOn hnoted hconnect hmerge _ _ hg _ _ ihnested ih =>
    rw [ih hctx, ihnested (hg ▸ hctx), (world_of_exec_act hmerge).1,
      (services_of_exec_connect hctx hconnect).1, hnoted.services]

/-- Every forward comes of a call of the first one or of another. -/
lemma Cascade.caused (h : Cascade r batch f ws c log c') (hctx : f.ctx.cancelled = false)
    (hws : ∀ w ∈ ws, w ∈ f.peers) : ∀ g ∈ log, ∃ f' ∈ f :: log, Caused c.services f' g := by
  induction h with
  | done _ => nofun
  | unreached hnoted hconnect _ ih =>
    rw [← hnoted.services, ← (services_of_exec_connect hctx hconnect).1]
    exact ih hctx fun w hw => hws w (List.mem_cons_of_mem _ hw)
  | kept hnoted hconnect hmerge _ _ ih =>
    rw [← hnoted.services, ← (services_of_exec_connect hctx hconnect).1,
      ← (world_of_exec_act hmerge).1]
    exact ih hctx fun w hw => hws w (List.mem_cons_of_mem _ hw)
  | @passedOn f g w ws log log' _ _ _ c₀ _ _ _ _ hnoted hconnect hmerge _ _ hg hnested _ ihnested
      ih =>
    obtain ⟨hconnected, hserved⟩ := services_of_exec_connect hctx hconnect
    rw [← hnoted.services]
    have hfirst : Caused c₀.services f g := by
      subst hg
      exact ⟨rfl, rfl, w, hws w List.mem_cons_self, hserved _ rfl⟩
    refine List.forall_mem_cons.mpr ⟨⟨f, List.mem_cons_self, hfirst⟩, fun g' hg' => ?_⟩
    rw [← hconnected, ← (world_of_exec_act hmerge).1]
    rcases List.mem_append.mp hg' with hg' | hg'
    · obtain ⟨f', hf', hcaused⟩ := ihnested (hg ▸ hctx) (fun _ hw => hw) g' hg'
      exact ⟨f', List.mem_cons_of_mem f (List.mem_append_left log' hf'), hcaused⟩
    · obtain ⟨f', hf', hcaused⟩ := ih hctx (fun w hw => hws w (List.mem_cons_of_mem _ hw)) g' hg'
      rw [hnested.services (hg ▸ hctx)] at hcaused
      have hsubset := List.cons_subset_cons f (List.subset_append_right (g :: log) log')
      exact ⟨f', hsubset hf', hcaused⟩

end Cluster

end DeltaRing
