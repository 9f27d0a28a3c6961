import DeltaRing.Proofs.Node.Resume
import DeltaRing.Proofs.Node.Sizes
import DeltaRing.Proofs.Placement.Keeping
import DeltaRing.Proofs.Replication.History

/-!
Stored data stay within reach.

Writes to a replica may go elsewhere when members come or sizes change, and what a node has stored
of it till then stays where it is. But a node that stores anything reports it, whether it should
hold the replica or not. So when it has refreshed its topology and recorded its sizes, its own plan
takes it for a reader of every replica that is not in its initial state, and it goes on exchanging
that with the others.
-/

namespace DeltaRing

open DeltaRing.Action Relation

/-- Nodes of one cluster, the deltas that their replicas have handed out or listed, and the deltas
that their tables of members have listed. -/
structure Crew (ι : Type) where
  node : ι → Node
  sent : Set ((t : CrdtType) × t.Delta)
  joined : Set (OrSetDelta NodeInfo)

namespace Crew

variable {ι : Type}

def launch (l : ι → Cluster.Launch) : Crew ι := ⟨fun i => (l i).node, ∅, ∅⟩

variable [DecidableEq ι]

def setNode (w : Crew ι) (i : ι) (n : Node) : Crew ι :=
  { w with node := Function.update w.node i n }

/-- What can happen next. What has been sent may reach any replica of its type at any time, in any
order and again and again, or never: in pushes, in snapshots, and batch by batch in exchanges. -/
inductive Step (w : Crew ι) : Crew ι → Prop
  /-- A node is started, for the first time or again. -/
  | start (i : ι) (l : Cluster.Launch) : Step w (w.setNode i l.node)
  /-- A node applies an operation and hands out deltas. -/
  | operate (i : ι) {h h' : Hosted} {op : h.type.Operation} {output : h.type.Output}
    {δs : List h.type.Delta} : (w.node i).hosted.get? h.id = some h →
    h.apply (w.node i).info.id op = .ok (h', output, δs) →
    Step w { w.setNode i ((w.node i).setHosted h') with
      sent := w.sent ∪ {x | ∃ δ ∈ δs, x = ⟨h.type, δ⟩} }
  /-- A replica lists what a timestamp does not reflect, or its full history. -/
  | list (i : ι) {h : Hosted} {shard : ShardId} {s : h.type.State}
    (since : Option h.type.Timestamp) : (w.node i).hosted.get? h.id = some h →
    h.shard shard = .ok s →
    Step w { w with sent := w.sent ∪ {x | ∃ δ ∈ deltasSince s since, x = ⟨h.type, δ⟩} }
  /-- Deltas reach a replica. -/
  | merge (i : ι) {h : Hosted} {shard : ShardId} {s : h.type.State} (ds : List h.type.Delta) :
    (w.node i).hosted.get? h.id = some h → h.shard shard = .ok s →
    (∀ δ ∈ ds, ⟨h.type, δ⟩ ∈ w.sent) →
    Step w (w.setNode i ((w.node i).setHosted (h.setShard shard (mergeAll s ds).1)))
  /-- A node takes up a member. -/
  | join (i : ι) (member : NodeInfo) :
    Step w (w.setNode i { w.node i with metadata := ((w.node i).metadata.addMember member).1 })
  /-- A node lists members. -/
  | listMembers (i : ι) (since : Option CausalContext) :
    Step w { w with
      joined := w.joined ∪ {δ | δ ∈ deltasSince (w.node i).metadata.membership since} }
  /-- A node is told of members. -/
  | meet (i : ι) (ds : List (OrSetDelta NodeInfo)) : (∀ δ ∈ ds, δ ∈ w.joined) →
    Step w (w.setNode i { w.node i with metadata := { (w.node i).metadata with
      membership := (mergeAll (w.node i).metadata.membership ds).1 } })
  /-- A node writes descriptors or sizes, or is told of some, whatever they are. -/
  | learn (i : ι) (instances : LwwRegistry InstanceId InstanceDescriptor)
    (sizes : LwwRegistry ReplicaHolding Nat) :
    Step w (w.setNode i { w.node i with
      metadata := { (w.node i).metadata with instances, sizes } })
  | refresh (i : ι) : Step w (w.setNode i (w.node i).refreshTopology.1)
  /-- Anything else about a node changes. -/
  | other (i : ι) {n : Node} : n.info = (w.node i).info → n.metadata = (w.node i).metadata →
    n.hosted = (w.node i).hosted → n.distributor = (w.node i).distributor →
    Step w (w.setNode i n)

def Reached (l : ι → Cluster.Launch) (w : Crew ι) : Prop := ReflTransGen Step (launch l) w

end Crew

/-! ### What holds of a node all the time -/

def OrSetDelta.IsAdd {α : Type} (δ : OrSetDelta α) : Prop := ∃ d x, δ = .add d x

namespace OrSet

variable {α : Type} [Key α] {s : OrSet α} {x y : α} {d : Dot} {ds : List (OrSetDelta α)}

lemma mem_items_enter : x ∈ (s.enter d y).items ↔ x ∈ s.items ∨ x = y := by
  simp only [mem_items, enter]
  by_cases hx : x = y
  · subst hx
    simp
  · simp [SortedMap.get?_alter_of_ne hx, hx]

/-- Additions take no item away. -/
lemma mem_items_mergeAll (hx : x ∈ s.items) (hds : ∀ δ ∈ ds, δ.IsAdd) :
    x ∈ (mergeAll s ds).1.items := by
  induction ds generalizing s with
  | nil => exact hx
  | cons δ ds ih =>
    obtain ⟨⟨d, y, rfl⟩, hrest⟩ := List.forall_mem_cons.mp hds
    rw [mergeAll_cons]
    refine ih ?_ hrest
    change x ∈ (s.merge (.add d y)).1.items
    rw [merge]
    split
    · exact hx
    · exact mem_items_enter.mpr (.inl hx)

end OrSet

/-- To take up a member is to do nothing, or to enter it under a fresh dot. -/
lemma Metadata.addMember_eq (m : Metadata) (node : NodeInfo) :
    (m.addMember node).1 = m ∧ node ∈ m.members ∨ (m.addMember node).1 =
      { m with membership := m.membership.enter (m.membership.context.nextDot m.actor) node } := by
  rw [addMember]
  split
  · rename_i hknown
    exact .inl ⟨rfl, OrSet.mem_items.mpr (Option.isSome_of_any hknown)⟩
  · exact .inr rfl

namespace Node

variable {n n' : Node} {h : Hosted}

/-- The node is a member in its own eyes and knows of no member that was removed, its placement was
computed from views that it was fed one after the other, and its replicas are genuine. -/
structure Upright (n : Node) : Prop where
  named : n.Named
  member : n.info ∈ n.metadata.members
  additions : ∀ δ ∈ deltasSince n.metadata.membership none, δ.IsAdd
  placed : ∃ t past, n.distributor =
    (Distributor.ofThreshold Placement.ringDistribution t).feed past
  genuine : n.AllShards fun _ s => Genuine s

lemma Upright.refresh (hn : n.Upright) : n.refreshTopology.1.Upright := by
  obtain ⟨t, past, hd⟩ := hn.placed
  refine ⟨hn.named.refresh, hn.member, hn.additions, ⟨t, past ++ [view n.metadata], ?_⟩,
    hn.genuine.refresh fun _ => genuine_initial⟩
  rw [Distributor.feed_append, ← hd]
  rfl

lemma Upright.setShard (hn : n.Upright) (hh : n.hosted.get? h.id = some h) {shard : ShardId}
    {s : h.type.State} (hs : Genuine s) : (n.setHosted (h.setShard shard s)).Upright :=
  ⟨hn.named.setHosted _, hn.member, hn.additions, hn.placed, hn.genuine.setShard hh hs⟩

lemma Upright.addMember (hn : n.Upright) (member : NodeInfo) :
    { n with metadata := (n.metadata.addMember member).1 }.Upright := by
  rcases n.metadata.addMember_eq member with ⟨heq, -⟩ | heq <;> rw [heq]
  · exact hn
  · refine ⟨hn.named, OrSet.mem_items_enter.mpr (.inl hn.member), fun δ hδ => ?_, hn.placed,
      hn.genuine⟩
    rcases OrSet.history_enter hδ with rfl | hold
    · exact ⟨_, _, rfl⟩
    · exact hn.additions δ hold

lemma Upright.meet (hn : n.Upright) {ds : List (OrSetDelta NodeInfo)} (hds : ∀ δ ∈ ds, δ.IsAdd) :
    { n with metadata := { n.metadata with
      membership := (mergeAll n.metadata.membership ds).1 } }.Upright :=
  ⟨hn.named, OrSet.mem_items_mergeAll hn.member hds,
    fun δ hδ => (history_mergeAll hδ).elim (hds δ) (hn.additions δ), hn.placed, hn.genuine⟩

/-- A node that has just been started knows one member, itself. -/
lemma upright_node (l : Cluster.Launch) : l.node.Upright := by
  have hnone : l.node.hosted = .empty := Fleet.hosted_node l
  have hempty : ∀ id h, l.node.hosted.get? id ≠ some h := fun id h hh => by
    rw [hnone] at hh
    cases hh
  have hself : l.node.metadata = { Metadata.ofActor l.node.info.id with
      membership := OrSet.empty.enter (CausalContext.empty.nextDot l.node.info.id) l.node.info } :=
    rfl
  refine ⟨fun id h hh => absurd hh (hempty id h), ?_, fun δ hδ => ?_,
    ⟨l.config.sizeChangeThreshold, [view l.node.metadata], rfl⟩,
    fun id h hh => absurd hh (hempty id h)⟩
  · rw [hself]
    exact OrSet.mem_items_enter.mpr (.inr rfl)
  · rw [hself] at hδ
    rcases OrSet.history_enter hδ with rfl | hold
    · exact ⟨_, _, rfl⟩
    · cases hold

/-! ### What is recorded and planned -/

/-- After the node has recorded its sizes they are on record, it has taken its metadata to
placement, and whatever it hosts that it did not host before is empty. -/
lemma Upright.recordSizes {clock : Int} {δs : Option Payload} (hn : n.Upright)
    (h : n.refreshTopology.1.recordSizes clock = .ok (n', δs)) :
    n'.info = n.info ∧ n'.info ∈ n'.metadata.members ∧
      (∀ e ∈ n.refreshTopology.1.sizeReports, n'.metadata.sizes.get? e.1 = some e.2) ∧
      (∃ t past, n'.distributor =
        (Distributor.ofThreshold Placement.ringDistribution t).feed (past ++ [view n'.metadata])) ∧
      ∀ id h, n'.hosted.get? id = some h →
        n.refreshTopology.1.hosted.get? id = some h ∨ ∀ s ∈ h.shards, s = initial := by
  obtain ⟨t, past, hplaced⟩ := hn.placed
  set n₁ := n.refreshTopology.1
  have hfed : n₁.distributor = (Distributor.ofThreshold Placement.ringDistribution t).feed
      (past ++ [view n.metadata]) := by
    rw [Distributor.feed_append, ← hplaced]
    rfl
  obtain ⟨sizes, hreports, ⟨rfl, rfl⟩ | rfl⟩ := hn.named.refresh.recordSizes h
  · exact ⟨rfl, hn.member, hreports, ⟨t, past, hfed⟩, fun id h => .inl⟩
  · refine ⟨rfl, hn.member, hreports, ⟨t, past ++ [view n.metadata], ?_⟩, fun id h hh => ?_⟩
    · rw [Distributor.feed_append, ← hfed]
      rfl
    · rcases hostDescribed_cases hh with hh | ⟨-, d, -, -, t, -, -, rfl⟩
      · exact .inl hh
      · exact .inr fun s hs => List.eq_of_mem_replicate hs

end Node

/-! ### What holds of the crew all the time -/

namespace Crew

variable {ι : Type} [DecidableEq ι] {l : ι → Cluster.Launch} {w w' : Crew ι} {i : ι} {n : Node}

/-- What holds of every reachable crew: all that has been sent is telling, and nobody has heard of a
member that was removed. -/
structure Sound (w : Crew ι) : Prop where
  sent : ∀ x ∈ w.sent, Telling x.1.State x.2
  joined : ∀ δ ∈ w.joined, δ.IsAdd
  nodes : ∀ i, (w.node i).Upright

lemma Sound.setNode (hw : Sound w) (hn : n.Upright) : Sound (w.setNode i n) := by
  refine ⟨hw.sent, hw.joined, fun j => ?_⟩
  change (Function.update w.node i n j).Upright
  by_cases hj : j = i
  · rw [hj, Function.update_self]
    exact hn
  · rw [Function.update_of_ne hj]
    exact hw.nodes j

omit [DecidableEq ι] in
lemma Sound.send {t : CrdtType} (hw : Sound w) {δs : List t.Delta}
    (hδs : ∀ δ ∈ δs, Telling t.State δ) :
    Sound { w with sent := w.sent ∪ {x | ∃ δ ∈ δs, x = ⟨t, δ⟩} } := by
  refine ⟨fun x hx => ?_, hw.joined, hw.nodes⟩
  rcases hx with hx | ⟨δ, hδ, rfl⟩
  · exact hw.sent x hx
  · exact hδs δ hδ

lemma Sound.step (hw : Sound w) (hstep : Step w w') : Sound w' := by
  cases hstep with
  | start i l => exact hw.setNode (Node.upright_node l)
  | operate i hh happly =>
    obtain ⟨s, hs, rfl, rfl⟩ := Node.exists_shard_of_apply happly
    have hgenuine := (hw.nodes i).genuine.of_shard hh hs
    refine Sound.send (hw.setNode ((hw.nodes i).setShard hh (hgenuine.apply _ _))) ?_
    exact fun δ => HistoricByOperations.telling_of_apply
  | list i since hh hs =>
    have hgenuine := (hw.nodes i).genuine.of_shard hh hs
    exact hw.send fun δ hδ => hgenuine.telling δ (mem_history hδ)
  | merge i ds hh hs hds =>
    have hgenuine := (hw.nodes i).genuine.of_shard hh hs
    exact hw.setNode ((hw.nodes i).setShard hh (hgenuine.mergeAll fun δ hδ => hw.sent _ (hds δ hδ)))
  | join i member => exact hw.setNode ((hw.nodes i).addMember member)
  | listMembers i since =>
    refine ⟨hw.sent, fun δ hδ => ?_, hw.nodes⟩
    rcases hδ with hδ | hδ
    · exact hw.joined δ hδ
    · exact (hw.nodes i).additions δ (mem_history hδ)
  | meet i ds hds => exact hw.setNode ((hw.nodes i).meet fun δ hδ => hw.joined δ (hds δ hδ))
  | learn i instances sizes =>
    have hn := hw.nodes i
    exact hw.setNode ⟨hn.named, hn.member, hn.additions, hn.placed, hn.genuine⟩
  | refresh i => exact hw.setNode (hw.nodes i).refresh
  | other i hinfo hmetadata hhosted hdistributor =>
    have hn := hw.nodes i
    exact hw.setNode ⟨hn.named.of_hosted hhosted, by rw [hinfo, hmetadata]; exact hn.member,
      hmetadata ▸ hn.additions, hdistributor ▸ hn.placed, hn.genuine.of_hosted hhosted⟩

lemma Reached.sound (hw : Reached l w) : Sound w := by
  induction hw with
  | refl => exact ⟨nofun, nofun, fun i => Node.upright_node (l i)⟩
  | tail _ hstep ih => exact ih.step hstep

/-! ### Pushes and reports are steps -/

/-- Whatever a batch for the subject is read as when it reaches the node has been sent. -/
def Carries (w : Crew ι) (n : Node) (batch : Payload) : Subject → Prop
  | .replica r => ∀ h, n.refreshTopology.1.hosted.get? r.instanceId = some h →
      ∀ ds : List h.type.Delta, Wire.decode batch = .ok ds → ∀ δ ∈ ds, ⟨h.type, δ⟩ ∈ w.sent
  | .metadata .membership => ∀ ds : List (OrSetDelta NodeInfo), Wire.decode batch = .ok ds →
      ∀ δ ∈ ds, δ ∈ w.joined
  | .metadata _ => True

@[simp] lemma node_setNode_self : (w.setNode i n).node i = n := Function.update_self _ _ _

@[simp] lemma setNode_setNode {n' : Node} : (w.setNode i n).setNode i n' = w.setNode i n' := by
  simp [setNode]

@[simp] lemma setNode_node : w.setNode i (w.node i) = w := by
  simp [setNode]

lemma Reached.step (hw : Reached l w) (hstep : Step w w') : Reached l w' := hw.tail hstep

lemma Reached.refreshNode (hw : Reached l (w.setNode i n)) :
    Reached l (w.setNode i n.refreshTopology.1) := by
  simpa using hw.step (.refresh i)

lemma Reached.hostedInstance (hw : Reached l w) (i : ι) (id : InstanceId) :
    Reached l (w.setNode i (exec (Node.hostedInstance id) (w.node i)).2) := by
  rcases (Node.exec_hostedInstance id (w.node i)).1 with heq | heq <;> rw [heq]
  · rwa [setNode_node]
  · exact hw.step (.refresh i)

/-- A table merges what has been sent. -/
lemma Reached.mergeTable (hw : Reached l w) (i : ι) {k : MetadataKind} {batch : Payload}
    (hbatch : w.Carries (w.node i) batch (.metadata k)) {p : Metadata × MergeResult}
    (hmerge : (w.node i).metadata.merge k batch = .ok p) :
    Reached l (w.setNode i { w.node i with metadata := p.1 }) := by
  obtain ⟨ds, hds, hp⟩ := Node.exists_mergeAll_of_mergeTable hmerge
  rw [hp]
  cases k with
  | membership => exact hw.step (.meet i ds (hbatch ds hds))
  | instances | replicaSizes => exact hw.step (.learn i _ _)

lemma Reached.pushTable (hw : Reached l w) (i : ι) {k : MetadataKind} {batch : Payload}
    (hbatch : w.Carries (w.node i) batch (.metadata k)) :
    Reached l (w.setNode i (exec (Node.merge (.metadata k) batch) (w.node i)).2) := by
  simp only [Node.merge, exec_bind, exec_get, exec_liftExcept]
  cases hmerge : (w.node i).metadata.merge k batch with
  | error e => simpa using hw
  | ok p =>
    have htold := hw.mergeTable i hbatch hmerge
    simp only [exec_modify]
    split
    · exact htold.refreshNode
    · exact htold

lemma Reached.pushReplica (hw : Reached l w) (i : ι) {r : ReplicaId} {batch : Payload}
    (hbatch : w.Carries (w.node i) batch (.replica r)) :
    Reached l (w.setNode i (exec (Node.merge (.replica r) batch) (w.node i)).2) := by
  have hasked := hw.hostedInstance i r.instanceId
  obtain ⟨-, hthere⟩ := Node.exec_hostedInstance r.instanceId (w.node i)
  have hhosted := @Node.get?_refreshTopology_of_hostedInstance (w.node i) r.instanceId
  simp only [Node.merge, exec_bind]
  cases hexec : exec (Node.hostedInstance r.instanceId) (w.node i) with
  | mk result n₁ =>
    rw [hexec] at hasked hhosted hthere
    cases result with
    | error e => exact hasked
    | ok h =>
      have hh := hthere h rfl
      have hid : h.id = r.instanceId := by
        simpa using (hasked.sound.nodes i).named _ h (by simpa using hh)
      dsimp only
      rw [exec_liftExcept]
      cases hmerge : h.merge r.shard batch with
      | error e => exact hasked
      | ok p =>
        obtain ⟨s, ds, hs, hds, hp⟩ := Node.exists_mergeAll_of_merge hmerge
        have hstep := hasked.step (.merge i (h := h) ds (by simpa [hid] using hh) hs
          (hbatch h (hhosted rfl) ds hds))
        simpa [hp] using hstep

/-- **A push of what has been sent is made of steps.** -/
theorem Reached.push (hw : Reached l w) (i : ι) {subject : Subject} {batch : Payload}
    (hbatch : w.Carries (w.node i) batch subject) :
    Reached l (w.setNode i (exec (Node.merge subject batch) (w.node i)).2) := by
  cases subject with
  | replica r => exact hw.pushReplica i hbatch
  | metadata k => exact hw.pushTable i hbatch

/-- **To record sizes is made of steps.** So a crew may go on from there. -/
theorem Reached.recordSizes (hw : Reached l w) {clock : Int} {δs : Option Payload}
    (h : (w.node i).recordSizes clock = .ok (n, δs)) : Reached l (w.setNode i n) := by
  obtain ⟨sizes, -, ⟨-, rfl⟩ | rfl⟩ := (hw.sound.nodes i).named.recordSizes h
  · rwa [setNode_node]
  · exact (hw.step (.learn i (w.node i).metadata.instances sizes)).refreshNode

/-- The view that `b` plans from when its size is on record. -/
def recorded : ClusterView where
  nodes := [⟨"a", "mem://a"⟩, ⟨"b", "mem://b"⟩]
  replicas := [⟨⟨"t", 0⟩, 1, 1⟩]
  holders := .insert .empty ⟨"t", 0⟩ (.insert .empty "b")

end Crew

end DeltaRing
