import DeltaRing.Cluster.Membership
import DeltaRing.Proofs.Cluster.Evolution
import DeltaRing.Proofs.Cluster.Exchanges
import DeltaRing.Proofs.Exchange.Merging
import DeltaRing.Proofs.Node.Retention

/-!
What nodes do to each other is made of steps.

A node that applies an operation takes a step, and what it pushes to nodes of the same type carries
only what it has handed out. So does what a node answers to one that joins. Exchanges are made of
two lists and two merges, however they end, for a side merges only what one of them had stored. So
whatever holds of every reachable crew holds of the nodes that have done any of this.
-/

namespace DeltaRing

open DeltaRing.Action LawfulWire Relation

/-- What the node has to send of the subject fits on the wire. If it is a replica, the node hosts it
as the type, or not at all. -/
def Node.Speaks (n : Node) (t : CrdtType) : Subject → Prop
  | .replica r => ∀ h, n.refreshTopology.1.hosted.get? r.instanceId = some h → ∃ id count,
      ∃ shards : List t.State, h = ⟨id, t, count, shards⟩ ∧
        ∀ s ∈ shards, ∀ δ ∈ deltasSince s none, Fits δ
  | .metadata _ => ∀ δ ∈ deltasSince n.metadata.membership none, Fits δ

namespace Crew

section

variable {ι : Type} [DecidableEq ι] {l : ι → Cluster.Launch} {w : Crew ι} {i j : ι} {n : Node}

/-! ### Operations -/

/-- **An operation is a step**, and what it hands out is carried to whoever hosts the instance as
the same type. -/
theorem Reached.operate (hw : Reached l w) {h h' : Hosted} {op : h.type.Operation}
    {output : h.type.Output} {δs : List h.type.Delta}
    (hh : (w.node i).hosted.get? h.id = some h)
    (happly : h.apply (w.node i).info.id op = .ok (h', output, δs)) (hfits : ∀ δ ∈ δs, Fits δ) :
    ∃ w', Reached l w' ∧ w'.node = (w.setNode i ((w.node i).setHosted h')).node ∧
      ∀ n, (∀ g, n.refreshTopology.1.hosted.get? h.id = some g → g.type = h.type) → ∀ shard,
        w'.Carries n (Wire.encode δs) (.replica ⟨h.id, shard⟩) := by
  refine ⟨_, hw.step (.operate i hh happly), rfl, fun n hsame shard ⟨_, t, _, _⟩ hg ds hds => ?_⟩
  obtain rfl : t = h.type := hsame _ hg
  obtain rfl := eq_of_decode_encode hfits hds
  exact fun δ hδ => .inr ⟨δ, hδ, rfl⟩

/-! ### Joining -/

/-- A node that lists its members tells of those that it has just taken up. -/
lemma mem_history_of_addMember {m : Metadata} {joiner : NodeInfo}
    {δs : List (OrSetDelta NodeInfo)} (h : (m.addMember joiner).2 = some δs) :
    ∀ δ ∈ δs, δ ∈ deltasSince (m.addMember joiner).1.membership none := by
  rw [Metadata.addMember] at h ⊢
  split
  · simp_all
  · rename_i hknown
    rw [if_neg hknown] at h
    obtain rfl := Option.some.inj h
    intro δ hδ
    obtain rfl := List.mem_singleton.mp hδ
    exact OrSet.mem_deltasSince_none.mpr (OrSet.mem_dotsOf_enter.mpr (.inr ⟨rfl, rfl⟩))

/-- **To admit a node is made of steps**, and what is announced and answered is carried. -/
theorem Reached.admit (hw : Reached l w) (i : ι) (joiner : NodeInfo) :
    let admitted := (w.node i).metadata.addMember joiner
    let n : Node := { w.node i with metadata := admitted.1 }
    let n' := if admitted.2.isSome then n.refreshTopology.1 else n
    (∀ δ ∈ deltasSince admitted.1.membership none, Fits δ) →
      ∃ w', Reached l w' ∧ w'.node = (w.setNode i n').node ∧
        (∀ δs, admitted.2 = some δs →
          ∀ m, w'.Carries m (Wire.encode δs) (.metadata .membership)) ∧
        ∀ k m, w'.Carries m (n'.metadata.snapshot k) (.metadata k) := by
  intro admitted n n' hfits
  have hnode : Reached l (w.setNode i n') := by
    have hjoined := hw.step (.join i joiner)
    by_cases hnew : admitted.2.isSome
    · rw [show n' = _ from if_pos hnew]
      exact hjoined.refreshNode
    · rw [show n' = _ from if_neg hnew]
      exact hjoined
  have hmetadata : n'.metadata = admitted.1 := by
    simp only [n']
    split <;> rfl
  refine ⟨_, hnode.step (.listMembers i none), rfl, fun δs hδs m ds hds δ hδ => ?_, fun k m => ?_⟩
  · obtain rfl := eq_of_decode_encode (fun δ hδ => hfits δ (mem_history_of_addMember hδs δ hδ)) hds
    refine .inr ?_
    rw [node_setNode_self, hmetadata]
    exact mem_history_of_addMember hδs δ hδ
  · cases k with
    | instances | replicaSizes => trivial
    | membership =>
      intro ds hds δ hδ
      rw [hmetadata] at hds
      obtain rfl := eq_of_decode_encode hfits hds
      refine .inr ?_
      rw [node_setNode_self, hmetadata]
      exact hδ

/-- **To take up snapshots is made of steps.** -/
theorem Reached.takeUp (hw : Reached l w) (j : ι) (snapshots : List (MetadataKind × Payload))
    (hcarries : ∀ p ∈ snapshots, ∀ m, w.Carries m p.2 (.metadata p.1)) :
    Reached l (w.setNode j (exec (snapshots.forM fun (k, batch) => do
      let (metadata, _) ← (← get).metadata.merge k batch
      modify fun n : Node => { n with metadata }) (w.node j)).2) := by
  induction snapshots generalizing w with
  | nil => simpa using hw
  | cons p snapshots ih =>
    obtain ⟨hp, hrest⟩ := List.forall_mem_cons.mp hcarries
    simp only [List.forM_eq_forM, List.forM_cons, exec_bind, exec_get, exec_liftExcept] at ih ⊢
    cases hmerge : (w.node j).metadata.merge p.1 p.2 with
    | error e => simpa using hw
    | ok q =>
      have hmerged := hw.mergeTable j (hp _) hmerge
      simpa using ih hmerged hrest

/-- **A join is made of steps**: one node admits the other, which takes up what it is answered. -/
theorem Reached.join (hw : Reached l w) (hne : i ≠ j) :
    let joiner := w.node j
    let admitted := (w.node i).metadata.addMember joiner.info
    let n : Node := { w.node i with metadata := admitted.1 }
    let n' := if admitted.2.isSome then n.refreshTopology.1 else n
    let taken := exec ((MetadataKind.all.map fun k => (k, n'.metadata.snapshot k)).forM
      fun (k, batch) => do
        let (metadata, _) ← (← get).metadata.merge k batch
        modify fun n : Node => { n with metadata }) joiner
    (∀ δ ∈ deltasSince admitted.1.membership none, Fits δ) → ∃ w', Reached l w' ∧
      w'.node = ((w.setNode i n').setNode j taken.2.refreshTopology.1).node := by
  intro joiner admitted n n' taken hfits
  obtain ⟨w', hw', hnode, -, hsnapshots⟩ := hw.admit i joiner.info hfits
  have htaken := hw'.takeUp j (MetadataKind.all.map fun k => (k, n'.metadata.snapshot k))
    fun p hp m => by
      obtain ⟨k, -, rfl⟩ := List.mem_map.mp hp
      exact hsnapshots k m
  have hj : w'.node j = joiner := by
    rw [hnode]
    exact Function.update_of_ne hne.symm _ _
  rw [hj] at htaken
  refine ⟨_, htaken.refreshNode, ?_⟩
  rw [setNode, setNode, hnode]

end

/-! ### Exchanges -/

open Cluster Exchange

variable {l : Seat → Launch} {w w' : Crew Seat} {c c' : Cluster} {seat peer : Seat} {n m : Node}
  {t : CrdtType} {r : ReplicaId}

def Mans (w : Crew Seat) (c : Cluster) : Prop := ∀ k n, c.nodes.get? k = some n → w.node k = n

/-- A crew that has come about goes on to be that of the second cluster if it was that of the
first. -/
def Accompanied (l : Seat → Launch) (c c' : Cluster) : Prop :=
  ∀ w, Reached l w → w.Mans c → ∃ w', Reached l w' ∧ w'.Mans c'

instance : IsPreorder Cluster (Accompanied l) where
  refl _ w hw hc := ⟨w, hw, hc⟩
  trans _ _ _ h h' w hw hc := by
    obtain ⟨w₁, hw₁, hc₁⟩ := h w hw hc
    exact h' w₁ hw₁ hc₁

lemma Mans.setNode (hc : w.Mans c) (seat : Seat) (n : Node) :
    (w.setNode seat n).Mans { c with nodes := c.nodes.insert seat n } := by
  intro k n' hk
  change Function.update w.node seat n k = n'
  by_cases hseat : k = seat
  · subst hseat
    rw [SortedMap.get?_insert_self, Option.some.injEq] at hk
    rw [Function.update_self, hk]
  · rw [SortedMap.get?_insert_of_ne hseat] at hk
    rw [Function.update_of_ne hseat, hc k n' hk]

/-- An action at a node that is made of steps. -/
lemma accompanied_act {α : Type} {a : Action Node α}
    (ha : ∀ w : Crew Seat, Reached l w → w.Mans c →
      Reached l (w.setNode seat (exec a (w.node seat)).2)) :
    Accompanied l c (exec (act seat a) c).2 := by
  cases hn : c.nodes.get? seat with
  | none =>
    rw [exec_act_gone hn]
    exact refl_of (Accompanied l) c
  | some n =>
    intro w hw hc
    have hsteps := ha w hw hc
    rw [hc seat n hn] at hsteps
    rw [exec_act hn]
    exact ⟨_, hsteps, hc.setNode seat _⟩

lemma accompanied_connect (caller callee : String) (ctx : OperationContext) :
    Keeps (Accompanied l) (connect caller callee ctx) := by
  refine (keeps_liftExcept _).bind fun _ => ?_
  refine (keeps_modify fun c w hw hc => ⟨w, hw, hc⟩).bind fun _ => keeps_get.bind fun c => ?_
  dsimp only
  split
  · split
    · exact keeps_pure _
    · exact keeps_throw _
  · exact keeps_throw _

lemma within_sideOf {S D T : Type} [CausalTimestamp T D] [DeltaCrdt S D T] [Wire D] [Wire T]
    (E : Set D) (n : Node) (s : S) : (sideOf n s : Half S T).Within E s := by
  rw [sideOf]
  split
  · exact ⟨⟨[], by simp, rfl⟩, by simp [Half.offered?, Half.cancelled]⟩
  · refine ⟨⟨[], by simp, rfl⟩, fun f hf => ?_⟩
    obtain rfl := Option.some.inj hf
    trivial

lemma exists_of_exec_hostedInstance {id : InstanceId} {h : Hosted}
    (hexec : exec (act seat (Node.hostedInstance id)) c = (.ok h, c')) :
    ∃ n n', c.nodes.get? seat = some n ∧ c'.nodes.get? seat = some n' ∧
      n.refreshTopology.1.hosted.get? id = some h ∧ n'.hosted.get? id = some h ∧
      ∀ k ≠ seat, c'.nodes.get? k = c.nodes.get? k := by
  obtain ⟨n', hn', hh⟩ := get?_of_exec_hostedInstance hexec
  cases hn : c.nodes.get? seat with
  | none =>
    rw [exec_act_gone hn] at hexec
    cases hexec
  | some n =>
    rw [exec_act hn, Prod.mk.injEq] at hexec
    obtain ⟨hok, rfl⟩ := hexec
    exact ⟨n, n', rfl, hn', Node.get?_refreshTopology_of_hostedInstance hok, hh,
      fun k hk => SortedMap.get?_insert_of_ne hk⟩

/-- Each of two replicas merges what one of them had stored. -/
lemma Reached.mergeStored (hw : Reached l w) (hne : seat ≠ peer) {id : InstanceId}
    {count count' : Nat} {shards shards' : List t.State} {shard : ShardId} {a b : t.State}
    {ds ds' : List t.Delta}
    (hh : (w.node seat).hosted.get? id = some ⟨id, t, count, shards⟩)
    (ha : (⟨id, t, count, shards⟩ : Hosted).shard shard = .ok a)
    (hh' : (w.node peer).hosted.get? id = some ⟨id, t, count', shards'⟩)
    (hb : (⟨id, t, count', shards'⟩ : Hosted).shard shard = .ok b)
    (hds : ∀ δ ∈ ds, δ ∈ deltasSince a none ∨ δ ∈ deltasSince b none)
    (hds' : ∀ δ ∈ ds', δ ∈ deltasSince a none ∨ δ ∈ deltasSince b none) :
    ∃ w', Reached l w' ∧ w'.node = ((w.setNode peer ((w.node peer).setHosted
      ((⟨id, t, count', shards'⟩ : Hosted).setShard shard (mergeAll b ds').1))).setNode seat
        ((w.node seat).setHosted
          ((⟨id, t, count, shards⟩ : Hosted).setShard shard (mergeAll a ds).1))).node := by
  have hlisted := (hw.step (.list seat none hh ha)).step (.list peer none hh' hb)
  have htold : ∀ δ, δ ∈ deltasSince a none ∨ δ ∈ deltasSince b none →
      (⟨t, δ⟩ : (t : CrdtType) × t.Delta) ∈
        (w.sent ∪ {x | ∃ δ ∈ deltasSince a none, x = ⟨t, δ⟩}) ∪
          {x | ∃ δ ∈ deltasSince b none, x = ⟨t, δ⟩} := fun δ hδ =>
    hδ.elim (fun hδ => .inl (.inr ⟨δ, hδ, rfl⟩)) fun hδ => .inr ⟨δ, hδ, rfl⟩
  have hthere := hlisted.step (.merge peer ds' hh' hb fun δ hδ => htold δ (hds' δ hδ))
  have hsame : ∀ n, Function.update w.node peer n seat = w.node seat := fun n =>
    Function.update_of_ne hne _ _
  have hhere := hthere.step (.merge seat ds ((congrArg (·.hosted.get? id) (hsame _)).trans hh) ha
    fun δ hδ => htold δ (hds δ hδ))
  refine ⟨_, hhere, ?_⟩
  simp only [setNode, hsame]

/-- Two nodes take over what a run of both sides has made of their replicas. -/
lemma accompanied_setShards (hne : seat ≠ peer) (hn : c.nodes.get? seat = some n)
    (hm : c.nodes.get? peer = some m) {id id' : InstanceId} {count count' : Nat}
    {shards shards' : List t.State} {a b : t.State}
    (hh : n.hosted.get? r.instanceId = some ⟨id, t, count, shards⟩)
    (ha : (⟨id, t, count, shards⟩ : Hosted).shard r.shard = .ok a)
    (hh' : m.hosted.get? r.instanceId = some ⟨id', t, count', shards'⟩)
    (hb : (⟨id', t, count', shards'⟩ : Hosted).shard r.shard = .ok b)
    (hfits : ∀ δ, δ ∈ deltasSince a none ∨ δ ∈ deltasSince b none → Fits δ) (capacity : Nat) :
    let x : Duplex t.State t.Timestamp t.State t.Timestamp :=
      (Duplex.connect (sideOf n a) (sideOf m b) capacity).run
    Accompanied l c { c with
      nodes := (c.nodes.insert peer (m.setHosted
        ((⟨id', t, count', shards'⟩ : Hosted).setShard r.shard x.right.state))).insert seat
          (n.setHosted ((⟨id, t, count, shards⟩ : Hosted).setShard r.shard x.left.state)) } := by
  intro x w hw hc
  have hnode := hc seat n hn
  have hnode' := hc peer m hm
  obtain rfl : id = r.instanceId := (hnode ▸ hw.sound.nodes seat).named _ _ hh
  obtain rfl : id' = r.instanceId := (hnode' ▸ hw.sound.nodes peer).named _ _ hh'
  obtain ⟨⟨ds, hds, hleft⟩, ds', hds', hright⟩ := merged_of_run hfits (fun _ => .inl)
    (fun _ => .inr) (within_sideOf _ n a) (within_sideOf _ m b) capacity
  obtain ⟨w', hw', heq⟩ := hw.mergeStored hne (hnode ▸ hh) ha (hnode' ▸ hh') hb hds hds'
  rw [hnode, hnode', ← hleft, ← hright] at heq
  exact ⟨w', hw', fun k n' hk => (congrFun heq k).trans
    ((hc.setNode peer _).setNode seat _ k n' hk)⟩

lemma get?_of_exec_act_get (hexec : exec (act seat get) c = (.ok n, c')) :
    c.nodes.get? seat = some n ∧ c' = c := by
  cases hn : c.nodes.get? seat with
  | none =>
    rw [exec_act_gone hn] at hexec
    cases hexec
  | some n₀ =>
    rw [exec_act_get hn] at hexec
    cases hexec
    exact ⟨rfl, rfl⟩

lemma accompanied_exchangeReplica (hne : seat ≠ peer)
    (hours : ∀ n, c.nodes.get? seat = some n → n.Speaks t (.replica r))
    (htheirs : ∀ m, c.nodes.get? peer = some m → m.Speaks t (.replica r)) :
    Accompanied l c (exec (exchangeReplica seat peer r) c).2 := by
  have hasked (seat : Seat) (c : Cluster) :
      Accompanied l c (exec (act seat (Node.hostedInstance r.instanceId)) c).2 :=
    accompanied_act fun w hw _ => hw.hostedInstance seat _
  refine related_bind (hasked peer c) fun theirs c₁ hexec => ?_
  obtain ⟨m₀, m, hm₀, hm, hspoken, hh', hothers⟩ := exists_of_exec_hostedInstance hexec
  obtain ⟨id', count', shards', rfl, hfits'⟩ := htheirs m₀ hm₀ _ hspoken
  refine related_bind (keeps_liftExcept _ c₁) fun b c₂ hb => ?_
  rw [exec_liftExcept, Prod.mk.injEq] at hb
  obtain ⟨hb, rfl⟩ := hb
  rw [exec_bind_ok (exec_act_get hm)]
  refine related_bind (keeps_liftExcept _ c₁) fun _ c₂ hcheck => ?_
  rw [exec_liftExcept, Prod.mk.injEq] at hcheck
  obtain ⟨-, rfl⟩ := hcheck
  refine related_bind (hasked seat c₁) fun ours c₂ hexec' => ?_
  obtain ⟨n₀, n, hn₀, hn, hspoken, hh, hothers'⟩ := exists_of_exec_hostedInstance hexec'
  rw [hothers seat hne] at hn₀
  obtain ⟨id, count, shards, rfl, hfits⟩ := hours n₀ hn₀ _ hspoken
  refine related_bind (keeps_liftExcept _ c₂) fun a c₃ ha => ?_
  rw [exec_liftExcept, Prod.mk.injEq] at ha
  obtain ⟨ha, rfl⟩ := ha
  have hm₂ := (hothers' peer hne.symm).trans hm
  have hn₂ (m' : Node) : (c₂.nodes.insert peer m').get? seat = some n :=
    (SortedMap.get?_insert_of_ne hne).trans hn
  rw [exec_bind_ok (exec_act_get hn)]
  dsimp only
  rw [exec_bind_ok (exec_act_modify hm₂ _), exec_bind_ok (exec_act_modify (hn₂ _) _),
    exec_liftExcept]
  exact accompanied_setShards hne hn hm₂ hh ha hh' hb (fun δ hδ =>
    hδ.elim (hfits a (Node.mem_of_shard ha) δ) (hfits' b (Node.mem_of_shard hb) δ)) _

/-- A registry may become any other in one step. -/
lemma Reached.setTable (hw : Reached l w) {k : MetadataKind} (hk : k ≠ .membership)
    (seat : Seat) (table : Metadata.Table k) :
    Reached l (w.setNode seat { w.node seat with
      metadata := (w.node seat).metadata.setTable k table }) := by
  cases k with
  | membership => exact absurd rfl hk
  | instances => exact hw.step (.learn seat table _)
  | replicaSizes => exact hw.step (.learn seat _ table)

/-- Two nodes take over what a run of both sides has made of a table. -/
lemma Reached.setTables (hw : Reached l w) (hne : seat ≠ peer)
    (hfits : ∀ δ ∈ deltasSince (w.node seat).metadata.membership none, Fits δ)
    (hfits' : ∀ δ ∈ deltasSince (w.node peer).metadata.membership none, Fits δ)
    (k : MetadataKind) (capacity : Nat) :
    let x := (Duplex.connect (sideOf (w.node seat) ((w.node seat).metadata.table k))
      (sideOf (w.node peer) ((w.node peer).metadata.table k)) capacity).run
    ∃ w', Reached l w' ∧ w'.node = ((w.setNode peer { w.node peer with
      metadata := (w.node peer).metadata.setTable k x.right.state }).setNode seat { w.node seat with
        metadata := (w.node seat).metadata.setTable k x.left.state }).node := by
  have hsame : ∀ n, Function.update w.node peer n seat = w.node seat := fun n =>
    Function.update_of_ne hne _ _
  intro x
  by_cases hk : k = .membership
  · subst hk
    let E : Set (OrSetDelta NodeInfo) := {δ |
      δ ∈ deltasSince (w.node seat).metadata.membership none ∨
        δ ∈ deltasSince (w.node peer).metadata.membership none}
    obtain ⟨⟨ds, hds, hleft⟩, ds', hds', hright⟩ := merged_of_run (E := E)
      (fun δ hδ => hδ.elim (hfits δ) (hfits' δ)) (fun _ => .inl) (fun _ => .inr)
      (within_sideOf _ _ _) (within_sideOf _ _ _) capacity
    have htold : ∀ δ ∈ E, δ ∈ (w.joined ∪ {δ |
        δ ∈ deltasSince (w.node seat).metadata.membership none}) ∪
          {δ | δ ∈ deltasSince (w.node peer).metadata.membership none} := fun δ hδ =>
      hδ.elim (fun hδ => .inl (.inr hδ)) .inr
    have hlisted := (hw.step (.listMembers seat none)).step (.listMembers peer none)
    have hthere := hlisted.step (.meet peer ds' fun δ hδ => htold δ (hds' δ hδ))
    refine ⟨_, hthere.step (.meet seat ds fun δ hδ => htold δ (hds δ hδ)), ?_⟩
    have hleft : x.left.state = (mergeAll (w.node seat).metadata.membership ds).1 := hleft
    have hright : x.right.state = (mergeAll (w.node peer).metadata.membership ds').1 := hright
    simp only [setNode, hsame, Metadata.setTable, hleft, hright]
  · have hthere := (hw.setTable hk peer x.right.state).setTable hk seat x.left.state
    refine ⟨_, hthere, ?_⟩
    simp only [setNode, hsame]

/-- A node that was left with another state of a table may go on to mind the news. -/
lemma Reached.withNews (hw : Reached l w') (hne : seat ≠ peer) {k : MetadataKind}
    {table : Metadata.Table k}
    (heq : w'.node = ((w.setNode peer (m.withTable k table false)).setNode seat n).node)
    (news : Bool) : ∃ w'', Reached l w'' ∧
      w''.node = ((w.setNode peer (m.withTable k table news)).setNode seat n).node := by
  cases news with
  | false => exact ⟨w', hw, heq⟩
  | true =>
    refine ⟨_, hw.step (.refresh peer), ?_⟩
    have hpeer : w'.node peer = m.withTable k table false := by
      rw [heq]
      exact (Function.update_of_ne hne.symm _ _).trans (Function.update_self _ _ _)
    let m₀ := m.withTable k table false
    calc Function.update w'.node peer (w'.node peer).refreshTopology.1
      _ = Function.update (Function.update (Function.update w.node peer m₀) seat n) peer
          m₀.refreshTopology.1 := by rw [hpeer, heq]; rfl
      _ = Function.update (Function.update (Function.update w.node peer m₀) peer
          m₀.refreshTopology.1) seat n := Function.update_comm hne _ _ _
      _ = Function.update (Function.update w.node peer m₀.refreshTopology.1) seat n := by
        rw [Function.update_idem]

lemma accompanied_exchangeMetadata {k : MetadataKind} (hne : seat ≠ peer)
    (hours : ∀ n, c.nodes.get? seat = some n → n.Speaks t (.metadata k))
    (htheirs : ∀ m, c.nodes.get? peer = some m → m.Speaks t (.metadata k)) :
    Accompanied l c (exec (exchangeMetadata seat peer k) c).2 := by
  intro w hw hc
  cases hn : c.nodes.get? seat with
  | none =>
    rw [exchangeMetadata, exec_bind_error (exec_act_gone hn)]
    exact ⟨w, hw, hc⟩
  | some n =>
    cases hm : c.nodes.get? peer with
    | none =>
      rw [exchangeMetadata, exec_bind_ok (exec_act_get hn), exec_bind_error (exec_act_gone hm)]
      exact ⟨w, hw, hc⟩
    | some m =>
      cases hcheck : checkCapacity m.config.exchangeChannelCapacity with
      | error e =>
        rw [exchangeMetadata, exec_bind_ok (exec_act_get hn), exec_bind_ok (exec_act_get hm),
          exec_bind, exec_liftExcept, hcheck]
        exact ⟨w, hw, hc⟩
      | ok _ =>
        have hnode := hc seat n hn
        have hnode' := hc peer m hm
        obtain ⟨w', hw', heq⟩ := hw.setTables hne (hnode ▸ hours n hn) (hnode' ▸ htheirs m hm) k
          m.config.exchangeChannelCapacity
        rw [hnode, hnode'] at heq
        generalize hx : (Duplex.connect (sideOf n (n.metadata.table k))
          (sideOf m (m.metadata.table k)) m.config.exchangeChannelCapacity).run = x at heq
        generalize hnews : (x.right.outcome.toOption.any fun r => r.result.isUpdated) = news
        have hn₁ (m₁ : Node) : (c.nodes.insert peer m₁).get? seat = some n :=
          (SortedMap.get?_insert_of_ne hne).trans hn
        rw [exec_exchangeMetadata hn hm hcheck hx hnews (hn₁ _)]
        have heq : w'.node = ((w.setNode peer (m.withTable k x.right.state false)).setNode seat
          (n.withTable k x.left.state false)).node := heq
        obtain ⟨w'', hw'', heq'⟩ := hw'.withNews hne heq news
        exact ⟨w'', hw'', fun j n' hj => (congrFun heq' j).trans
          ((hc.setNode peer _).setNode seat _ j n' hj)⟩

lemma served_of_exec_connect {caller callee : String} {ctx : OperationContext}
    (hconnect : exec (connect caller callee ctx) c = (.ok peer, c')) :
    c.services.get? callee = some peer ∧ c'.nodes = c.nodes := by
  simp only [connect, exec_bind, exec_liftExcept, exec_modify, exec_get] at hconnect
  cases hactive : ctx.ensureActive with
  | error e =>
    rw [hactive] at hconnect
    cases hconnect
  | ok _ =>
    rw [hactive] at hconnect
    dsimp only at hconnect
    split at hconnect
    · cases hserved : c.services.get? callee with
      | none =>
        simp only [hserved] at hconnect
        cases hconnect
      | some other =>
        simp only [hserved] at hconnect
        cases hconnect
        exact ⟨rfl, rfl⟩
    · cases hconnect

/-- **An exchange is made of steps**, whatever comes of it, if another node serves at the address
and both speak of one type. -/
theorem accompanied_exchange {p : NodeInfo} {subject : Subject}
    (hne : c.services.get? p.address ≠ some seat)
    (hspeak : ∀ k n, k = seat ∨ c.services.get? p.address = some k → c.nodes.get? k = some n →
      n.Speaks t subject) :
    Accompanied l c (exec (exchange seat p subject) c).2 := by
  have hget : Accompanied l c (exec (act seat get) c).2 :=
    accompanied_act fun w hw _ => by simpa using hw
  refine related_bind hget fun n c₁ hexec => ?_
  obtain ⟨-, rfl⟩ := get?_of_exec_act_get hexec
  refine related_bind (accompanied_connect _ _ _ c₁) fun other c₂ hconnect => ?_
  obtain ⟨hserved, hnodes⟩ := served_of_exec_connect hconnect
  have hother : seat ≠ other := fun heq => hne (heq ▸ hserved)
  have hours (n : Node) (hn : c₂.nodes.get? seat = some n) := hspeak seat n (.inl rfl) (hnodes ▸ hn)
  have htheirs (m : Node) (hm : c₂.nodes.get? other = some m) :=
    hspeak other m (.inr hserved) (hnodes ▸ hm)
  cases subject with
  | replica r => exact accompanied_exchangeReplica hother hours htheirs
  | metadata k => exact accompanied_exchangeMetadata hother hours htheirs

end Crew

end DeltaRing
