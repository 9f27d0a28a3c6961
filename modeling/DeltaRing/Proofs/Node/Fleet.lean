import DeltaRing.Cluster.Lifecycle
import DeltaRing.Proofs.Cluster.Exec
import DeltaRing.Proofs.Node.Hosting
import DeltaRing.Proofs.Placement.Agreement
import DeltaRing.Proofs.Replication.Registry
import DeltaRing.Proofs.Wire.Records
import Mathlib.Logic.Function.Basic
import Mathlib.Logic.Relation

/-!
Instances that several nodes create under one id.

A node hosts an instance by the descriptor that it knows when its topology is refreshed first, and
keeps type and shards for good. A descriptor that wins later changes what placement is computed
from, but not what is hosted. So the two speak about the same shards if all descriptors that were
ever written for the instance do, and otherwise they may not.
-/

namespace DeltaRing

open DeltaRing.Action Relation

abbrev DescriptorWrite := LwwDelta InstanceId InstanceDescriptor

/-- What of a hosted instance never changes. -/
def Hosted.shape (h : Hosted) : CrdtType × Nat := (h.type, h.shards.length)

def Hosted.Matches (h : Hosted) (d : InstanceDescriptor) : Prop :=
  h.type.name = d.crdtType ∧ h.shards.length = d.shardCount

lemma Hosted.Matches.of_shape {h h' : Hosted} {d : InstanceDescriptor} (hm : h.Matches d)
    (hshape : h'.shape = h.shape) : h'.Matches d := by
  obtain ⟨htype, hlength⟩ := Prod.mk.inj hshape
  exact ⟨(congrArg CrdtType.name htype).trans hm.1, hlength.trans hm.2⟩

namespace Node

def learn (n : Node) (ds : List DescriptorWrite) : Node :=
  { n with metadata := { n.metadata with instances := (mergeAll n.metadata.instances ds).1 } }

/-- Nothing that bears on which instances are hosted, or how they are placed, changes but the states
of their shards. -/
structure KeepsHosting (n n' : Node) : Prop where
  types : n'.types = n.types
  instances : n'.metadata.instances = n.metadata.instances
  distributor : n'.distributor = n.distributor
  hosted : ∀ id, (n'.hosted.get? id).map Hosted.shape = (n.hosted.get? id).map Hosted.shape

end Node

/-- Nodes of one cluster, and the writes of descriptors that any of them has handed out. -/
structure Fleet (ι : Type) where
  node : ι → Node
  written : List DescriptorWrite

namespace Fleet

variable {ι : Type}

def launch (l : ι → Cluster.Launch) : Fleet ι := ⟨fun i => (l i).node, []⟩

variable [DecidableEq ι]

def setNode (w : Fleet ι) (i : ι) (n : Node) : Fleet ι :=
  { w with node := Function.update w.node i n }

def refresh (w : Fleet ι) (i : ι) : Fleet ι := w.setNode i (w.node i).refreshTopology.1

/-- What can happen next. Whatever has been written may reach any node at any time, in any order and
again and again, or never: in pushes, in the snapshots that a joiner gets, and batch by batch in
exchanges. -/
inductive Step (w : Fleet ι) : Fleet ι → Prop
  /-- A node records the descriptor of an instance that it creates. -/
  | create (i : ι) {clock : Int} {id : InstanceId} {type : CrdtType} {shards replicas : Option Nat}
    {metadata : Metadata} {deltas : Option (List DescriptorWrite)} :
    (w.node i).metadata.registerInstance clock ((w.node i).describe id type shards replicas) =
      .ok (metadata, deltas) →
    Step w { w.setNode i { w.node i with metadata } with written := w.written ++ deltas.getD [] }
  /-- Writes reach a node. -/
  | learn (i : ι) (ds : List DescriptorWrite) : (∀ δ ∈ ds, δ ∈ w.written) →
    Step w (w.setNode i ((w.node i).learn ds))
  | refresh (i : ι) : Step w (w.refresh i)
  /-- Anything else about a node changes: it executes operations, merges other deltas, is told of
  members or sizes. -/
  | other (i : ι) {n : Node} : (w.node i).KeepsHosting n → Step w (w.setNode i n)

/-- The descriptors written for the instance all ask for one type and one number of shards. -/
def Agreed (w : Fleet ι) (id : InstanceId) : Prop :=
  ∀ d d' s s', LwwDelta.set id d s ∈ w.written → LwwDelta.set id d' s' ∈ w.written →
    d.crdtType = d'.crdtType ∧ d.shardCount = d'.shardCount

end Fleet

/-! ### Tables of descriptors -/

namespace LwwRegistry

variable {K V : Type} [Key K] {r : LwwRegistry K V} {k : K} {e : LwwEntry V}

/-- An entry after a merge was there before or is that of a merged delta. -/
lemma get?_mergeAll {ds : List (LwwDelta K V)}
    (he : (mergeAll r ds).1.entries.get? k = some e) :
    r.entries.get? k = some e ∨ LwwDelta.ofEntry k e ∈ ds := by
  induction ds generalizing r with
  | nil => exact .inl he
  | cons δ ds ih =>
    rw [mergeAll_cons] at he
    rcases ih he with hold | hnew
    · cases hb : reflects (timestamp r) δ with
      | true =>
        rw [show (DeltaRing.merge r δ).1 = r from congrArg Prod.fst (merge_of_blocking hb)] at hold
        exact .inl hold
      | false =>
        rw [show (DeltaRing.merge r δ).1 = ⟨r.entries.insert δ.key δ.entry⟩ from
          congrArg Prod.fst (merge_of_not_blocking hb)] at hold
        by_cases hk : k = δ.key
        · subst hk
          rw [SortedMap.get?_insert_self, Option.some.injEq] at hold
          exact .inr (by simp [← hold])
        · rw [SortedMap.get?_insert_of_ne hk] at hold
          exact .inl hold
    · exact .inr (by simp [hnew])

end LwwRegistry

namespace Metadata

variable {m m' : Metadata} {id : InstanceId} {d : InstanceDescriptor}

lemma mem_descriptors : d ∈ m.descriptors ↔
    ∃ id e, m.instances.entries.get? id = some e ∧ e.value = some d := by
  simp only [descriptors, LwwRegistry.items, List.mem_map, List.mem_filterMap, Prod.exists,
    SortedMap.mem_entries_iff, Option.map_eq_some_iff, Prod.mk.injEq]
  constructor
  · rintro ⟨_, _, ⟨id, e, he, _, hd, rfl, rfl⟩, rfl⟩
    exact ⟨id, e, he, hd⟩
  · rintro ⟨id, e, he, hd⟩
    exact ⟨id, d, ⟨id, e, he, d, hd, rfl, rfl⟩, rfl⟩

lemma descriptor?_eq_some_iff : m.descriptor? id = some d ↔
    ∃ e, m.instances.entries.get? id = some e ∧ e.value = some d :=
  Option.bind_eq_some_iff

lemma registerInstance_eq {clock : Int} {deltas : Option (List DescriptorWrite)}
    (h : m.registerInstance clock d = .ok (m', deltas)) :
    (∀ δ ∈ deltas.getD [], ∃ stamp, δ = .set d.instanceId d stamp) ∧
      m' = { m with instances := (mergeAll m.instances (deltas.getD [])).1 } := by
  rw [registerInstance, replaceEntry] at h
  split at h
  · cases h
    exact ⟨by simp, rfl⟩
  · cases ht : readClock clock with
    | error e =>
      rw [ht] at h
      cases h
    | ok now =>
      rw [ht] at h
      generalize hδ : LwwDelta.set d.instanceId d ⟨nextTime now
        ((m.instances.stamp? d.instanceId).map LwwStamp.time), m.actor⟩ = δ at h
      have hwritten : .ok ({ m with instances := (m.instances.write δ).1 },
          (m.instances.write δ).2.toOption.map fun δ => [δ]) =
            (.ok (m', deltas) : Except ClusterError _) := by
        rw [← h, ← hδ]
        rfl
      obtain ⟨hm, hdeltas⟩ := Prod.mk.inj (Except.ok.inj hwritten)
      rw [← hm, ← hdeltas]
      cases hb : m.instances.blocking δ.key δ.stamp with
      | some e =>
        simp [LwwRegistry.write, hb, Except.toOption]
      | none =>
        have hnew : reflects m.instances.timestamp δ = false := by
          rw [← LwwRegistry.isSome_blocking, hb]
          rfl
        have hmerge : (DeltaRing.merge m.instances δ).1 =
            ⟨m.instances.entries.insert δ.key δ.entry⟩ :=
          congrArg Prod.fst (LwwRegistry.merge_of_not_blocking hnew)
        simp only [LwwRegistry.write, hb, Except.toOption, Option.map_some, Option.getD_some,
          List.mem_singleton, forall_eq, mergeAll_cons, mergeAll_nil, hmerge, and_true]
        exact ⟨_, hδ.symm⟩

end Metadata

namespace Fleet

variable {ι : Type} [DecidableEq ι] {l : ι → Cluster.Launch} {w w' : Fleet ι} {i j : ι}
  {n : Node} {id : InstanceId} {h : Hosted} {d : InstanceDescriptor}

@[simp] lemma node_setNode_self : (w.setNode i n).node i = n := Function.update_self _ _ _

lemma node_setNode_of_ne (hne : j ≠ i) : (w.setNode i n).node j = w.node j :=
  Function.update_of_ne hne _ _

lemma forall_setNode {P : Node → Prop} (h : ∀ j, P (w.node j)) (hn : P n) (j : ι) :
    P ((w.setNode i n).node j) := by
  by_cases hj : j = i
  · rw [hj, node_setNode_self]
    exact hn
  · rw [node_setNode_of_ne hj]
    exact h j

/-! ### Where descriptors and plans come from -/

def WellFormed (δ : DescriptorWrite) : Prop :=
  ∃ d s, δ = .set d.instanceId d s ∧ d.shardCount = shardsOf d.shardCount

/-- The node knows only descriptors out of these writes, and its placement was computed from views
that it was fed one after the other. -/
structure Informed (written : List DescriptorWrite) (n : Node) : Prop where
  recorded : ∀ k e, n.metadata.instances.entries.get? k = some e → LwwDelta.ofEntry k e ∈ written
  placed : ∃ t past, n.distributor =
    (Distributor.ofThreshold Placement.ringDistribution t).feed past

structure Sound (w : Fleet ι) : Prop where
  wellFormed : ∀ δ ∈ w.written, WellFormed δ
  informed : ∀ i, Informed w.written (w.node i)

lemma Informed.mono {written written' : List DescriptorWrite} (hi : Informed written n)
    (hsub : ∀ δ ∈ written, δ ∈ written') : Informed written' n :=
  ⟨fun k e he => hsub _ (hi.recorded k e he), hi.placed⟩

lemma Informed.learn {written : List DescriptorWrite} (hi : Informed written n)
    {ds : List DescriptorWrite} (hds : ∀ δ ∈ ds, δ ∈ written) : Informed written (n.learn ds) :=
  ⟨fun k e he => (LwwRegistry.get?_mergeAll he).elim (hi.recorded k e) (hds _), hi.placed⟩

lemma Informed.refresh {written : List DescriptorWrite} (hi : Informed written n) :
    Informed written n.refreshTopology.1 := by
  obtain ⟨t, past, hd⟩ := hi.placed
  refine ⟨hi.recorded, t, past ++ [Node.view n.metadata], ?_⟩
  rw [Distributor.feed_append, ← hd]
  rfl

lemma instances_node (l : Cluster.Launch) : l.node.metadata.instances = .empty := by
  change ((Metadata.ofActor _).addMember _).1.instances = .empty
  rw [Metadata.addMember]
  split <;> rfl

lemma hosted_node (l : Cluster.Launch) : l.node.hosted = .empty := by
  have hnone : l.node.metadata.descriptors = [] := by
    rw [Metadata.descriptors, instances_node]
    rfl
  change (l.node.metadata.descriptors.foldl (Node.hostOne l.types) .empty) = .empty
  rw [hnone]
  rfl

lemma informed_node (l : Cluster.Launch) : Informed [] l.node := by
  refine ⟨fun k e he => ?_, l.config.sizeChangeThreshold, [Node.view l.node.metadata], rfl⟩
  rw [instances_node] at he
  cases he

lemma Sound.step (hw : Sound w) (hstep : Step w w') : Sound w' := by
  cases hstep with
  | @create i clock id type shards replicas metadata deltas hcreate =>
    obtain ⟨hnew, rfl⟩ := Metadata.registerInstance_eq hcreate
    constructor
    · intro δ hδ
      rcases List.mem_append.mp hδ with hδ | hδ
      · exact hw.wellFormed δ hδ
      · obtain ⟨s, rfl⟩ := hnew δ hδ
        refine ⟨_, s, rfl, ?_⟩
        simp [Node.describe, shardsOf]
    · have hsub : ∀ δ ∈ w.written, δ ∈ w.written ++ deltas.getD [] := fun _ =>
        List.mem_append_left _
      exact forall_setNode (fun j => (hw.informed j).mono hsub)
        (((hw.informed i).mono hsub).learn fun _ => List.mem_append_right _)
  | learn i ds hds => exact ⟨hw.wellFormed, forall_setNode hw.informed ((hw.informed i).learn hds)⟩
  | refresh i => exact ⟨hw.wellFormed, forall_setNode hw.informed (hw.informed i).refresh⟩
  | @other i n hkeeps =>
    refine ⟨hw.wellFormed, forall_setNode hw.informed ⟨?_, ?_⟩⟩
    · exact hkeeps.instances ▸ (hw.informed i).recorded
    · exact hkeeps.distributor ▸ (hw.informed i).placed

def Reached (l : ι → Cluster.Launch) (w : Fleet ι) : Prop := ReflTransGen Step (launch l) w

lemma Reached.sound (hw : Reached l w) : Sound w := by
  induction hw with
  | refl => exact ⟨by simp [launch], fun i => informed_node (l i)⟩
  | tail _ hstep ih => exact ih.step hstep

omit [DecidableEq ι] in
lemma Sound.descriptor (hw : Sound w) (hd : (w.node i).metadata.descriptor? id = some d) :
    d.instanceId = id ∧ d.shardCount = shardsOf d.shardCount ∧ ∃ s, .set id d s ∈ w.written := by
  obtain ⟨e, he, hvalue⟩ := Metadata.descriptor?_eq_some_iff.mp hd
  have hmem := (hw.informed i).recorded id e he
  obtain ⟨d', s, hset, hcount⟩ := hw.wellFormed _ hmem
  obtain ⟨v, stamp⟩ := e
  obtain rfl : v = some d := hvalue
  cases hset
  exact ⟨rfl, hcount, _, hmem⟩

omit [DecidableEq ι] in
lemma Sound.mem_descriptors (hw : Sound w) : d ∈ (w.node i).metadata.descriptors ↔
    (w.node i).metadata.descriptor? d.instanceId = some d := by
  rw [Metadata.mem_descriptors]
  constructor
  · rintro ⟨id, e, he, hvalue⟩
    have hd : (w.node i).metadata.descriptor? id = some d :=
      Metadata.descriptor?_eq_some_iff.mpr ⟨e, he, hvalue⟩
    rwa [(hw.descriptor hd).1]
  · intro hd
    obtain ⟨e, he, hvalue⟩ := Metadata.descriptor?_eq_some_iff.mp hd
    exact ⟨_, e, he, hvalue⟩

/-! ### Where hosted instances come from -/

lemma hosted_setNode (hn : n.hosted = (w.node j).hosted) (i : ι) :
    ((w.setNode j n).node i).hosted = (w.node i).hosted := by
  by_cases hij : i = j
  · rw [hij, node_setNode_self, hn]
  · rw [node_setNode_of_ne hij]

/-- A step refreshes the node, or changes nothing of what it hosts but the states of shards. -/
lemma Step.hosted (hstep : Step w w') (i : ι) : w' = w.refresh i ∨
    ∀ id, ((w'.node i).hosted.get? id).map Hosted.shape =
      ((w.node i).hosted.get? id).map Hosted.shape := by
  cases hstep with
  | @create j clock id type shards replicas metadata deltas _ =>
    have hsame := hosted_setNode (w := w) (n := { w.node j with metadata }) rfl i
    exact .inr fun id => congrArg (fun hosted => (hosted.get? id).map Hosted.shape) hsame
  | learn j ds _ =>
    have hsame := hosted_setNode (w := w) (n := (w.node j).learn ds) rfl i
    exact .inr fun id => congrArg (fun hosted => (hosted.get? id).map Hosted.shape) hsame
  | refresh j =>
    by_cases hij : i = j
    · exact .inl (by rw [hij])
    · exact .inr fun id => by rw [Fleet.refresh, node_setNode_of_ne hij]
  | other j hkeeps =>
    by_cases hij : i = j
    · subst hij
      rw [node_setNode_self]
      exact .inr hkeeps.hosted
    · exact .inr fun id => by rw [node_setNode_of_ne hij]

/-- What is hosted after a step was hosted before it, or the step was a refresh and has made it from
the descriptor of its id. -/
lemma Step.hosted_cases (hw : Sound w) (hstep : Step w w')
    (hh : (w'.node i).hosted.get? id = some h) :
    (∃ h₀, (w.node i).hosted.get? id = some h₀ ∧ h.shape = h₀.shape) ∨
      w' = w.refresh i ∧ (w.node i).hosted.get? id = none ∧
        ∃ d, (w.node i).metadata.descriptor? id = some d ∧ h.Matches d := by
  rcases hstep.hosted i with rfl | hsame
  · rw [Fleet.refresh, node_setNode_self] at hh
    rcases Node.hostDescribed_cases hh with hh | ⟨hnone, d, hd, hid, t, -, hname, rfl⟩
    · exact .inl ⟨h, hh, rfl⟩
    · have hd' := hw.mem_descriptors.mp hd
      rw [hid] at hd'
      refine .inr ⟨rfl, hnone, d, hd', hname, ?_⟩
      rw [(hw.descriptor hd').2.1]
      exact List.length_replicate
  · have hshape := hsame id
    rw [hh, Option.map_some] at hshape
    obtain ⟨h₀, hh₀, heq⟩ := Option.map_eq_some_iff.mp hshape.symm
    exact .inl ⟨h₀, hh₀, heq.symm⟩

lemma Step.exists_hosted (hstep : Step w w') (hh : (w.node i).hosted.get? id = some h) :
    ∃ h', (w'.node i).hosted.get? id = some h' ∧ h'.shape = h.shape := by
  rcases hstep.hosted i with rfl | hsame
  · refine ⟨h, ?_, rfl⟩
    rw [Fleet.refresh, node_setNode_self]
    exact Node.get?_hostDescribed hh
  · have hshape := hsame id
    rw [hh, Option.map_some] at hshape
    exact Option.map_eq_some_iff.mp hshape

lemma exists_hosted_of_steps (hsteps : ReflTransGen Step w w')
    (hh : (w.node i).hosted.get? id = some h) :
    ∃ h', (w'.node i).hosted.get? id = some h' ∧ h'.shape = h.shape := by
  induction hsteps with
  | refl => exact ⟨h, hh, rfl⟩
  | tail _ hstep ih =>
    obtain ⟨h₁, hh₁, hshape₁⟩ := ih
    obtain ⟨h₂, hh₂, hshape₂⟩ := hstep.exists_hosted hh₁
    exact ⟨h₂, hh₂, hshape₂.trans hshape₁⟩

/-- The node has hosted the instance since a refresh that found it described by `d` and not hosted,
and hosts it as `d` says. -/
def FirstDescribedBy (l : ι → Cluster.Launch) (w : Fleet ι) (i : ι) (id : InstanceId) (h : Hosted)
    (d : InstanceDescriptor) : Prop :=
  ∃ w₁, Reached l w₁ ∧ ReflTransGen Step (w₁.refresh i) w ∧
    (w₁.node i).hosted.get? id = none ∧ (w₁.node i).metadata.descriptor? id = some d ∧ h.Matches d

lemma Reached.exists_first (hw : Reached l w) (hh : (w.node i).hosted.get? id = some h) :
    ∃ d, FirstDescribedBy l w i id h d := by
  induction hw generalizing h with
  | refl =>
    rw [launch, hosted_node] at hh
    cases hh
  | tail hw hstep ih =>
    rcases hstep.hosted_cases (Reached.sound hw) hh with ⟨h₀, hh₀, hshape⟩ | ⟨rfl, hnone, d, hd, hm⟩
    · obtain ⟨d, w₁, hw₁, hsteps, hnone, hd, hm⟩ := ih hh₀
      exact ⟨d, w₁, hw₁, hsteps.tail hstep, hnone, hd, hm.of_shape hshape⟩
    · exact ⟨d, _, hw, .refl, hnone, hd, hm⟩

/-! ### What is placed -/

omit [DecidableEq ι] in
/-- After a refresh the plan places the shards that the descriptors tell of. -/
lemma Sound.contains_plan (hw : Sound w) (i : ι) (r : ReplicaId) :
    (w.node i).refreshTopology.1.distributor.plan.contains r = true ↔
      ∃ d, (w.node i).metadata.descriptor? r.instanceId = some d ∧ r.shard < d.shardCount := by
  obtain ⟨t, past, hd⟩ := (hw.informed i).placed
  have hfed : (w.node i).refreshTopology.1.distributor =
      (Distributor.ofThreshold Placement.ringDistribution t).feed
        (past ++ [Node.view (w.node i).metadata]) := by
    rw [Distributor.feed_append, ← hd]
    rfl
  rw [hfed, Distributor.contains_plan_feed]
  have hview : (∃ info ∈ (Node.view (w.node i).metadata).replicas, info.replica = r) ↔
      ∃ d ∈ (w.node i).metadata.descriptors, d.instanceId = r.instanceId ∧
        r.shard < d.shardCount := by
    simp only [Node.view, InstanceDescriptor.replicas, List.mem_flatMap, List.map_map,
      List.mem_map, List.mem_range]
    constructor
    · rintro ⟨_, ⟨d, hd, shard, hshard, rfl⟩, rfl⟩
      exact ⟨d, hd, rfl, hshard⟩
    · rintro ⟨d, hd, hid, hshard⟩
      exact ⟨_, ⟨d, hd, r.shard, hshard, rfl⟩, by simp [hid]⟩
  rw [hview]
  constructor
  · rintro ⟨d, hd, hid, hshard⟩
    exact ⟨d, hid ▸ hw.mem_descriptors.mp hd, hshard⟩
  · rintro ⟨d, hd, hshard⟩
    have hid := (hw.descriptor hd).1
    exact ⟨d, hw.mem_descriptors.mpr (hid ▸ hd), hid, hshard⟩

lemma Step.written_subset (hstep : Step w w') : ∀ δ ∈ w.written, δ ∈ w'.written := by
  cases hstep with
  | create _ _ => exact fun _ => List.mem_append_left _
  | learn _ _ _ => exact fun _ => id
  | refresh _ => exact fun _ => id
  | other _ _ => exact fun _ => id

lemma written_subset (hsteps : ReflTransGen Step w w') : ∀ δ ∈ w.written, δ ∈ w'.written := by
  induction hsteps with
  | refl => exact fun _ => id
  | tail _ hstep ih => exact fun δ hδ => hstep.written_subset δ (ih δ hδ)

/-- Whatever the first descriptor of an instance was, another one that agrees with it says the same
about what is hosted. -/
lemma Reached.matches_of_agreed (hw : Reached l w) (hh : (w.node i).hosted.get? id = some h)
    (hd : (w.node i).metadata.descriptor? id = some d) (hagreed : w.Agreed id) : h.Matches d := by
  obtain ⟨d₁, w₁, hw₁, hsteps, -, hd₁, htype, hlength⟩ := hw.exists_first hh
  obtain ⟨-, -, s, hwritten⟩ := hw.sound.descriptor hd
  obtain ⟨-, -, s₁, hwritten₁⟩ := hw₁.sound.descriptor hd₁
  obtain ⟨htype', hcount⟩ := hagreed d₁ d s₁ s (written_subset hsteps _ hwritten₁) hwritten
  exact ⟨htype.trans htype', hlength.trans hcount⟩

/-- **A node hosts every instance by the first descriptor that it had of it.** It does so from the
refresh on that found the instance described and not hosted, with the type and as many shards as the
descriptor told, whatever is written later. If all descriptors that were ever written for the
instance agree in type and shards, then what is hosted matches the descriptor that the node has now,
and after a refresh the plan places just the shards that are hosted. Instances of known types that
are described are hosted then. -/
theorem hosted_by_first_descriptor (l : ι → Cluster.Launch) (hw : Reached l w) (i : ι)
    (id : InstanceId) :
    (∀ h, (w.node i).hosted.get? id = some h →
      (∃ d, FirstDescribedBy l w i id h d) ∧
      (∀ w', ReflTransGen Step w w' →
        ∃ h', (w'.node i).hosted.get? id = some h' ∧ h'.shape = h.shape) ∧
      (w.Agreed id → ∀ d, (w.node i).metadata.descriptor? id = some d → h.Matches d)) ∧
    let n := (w.refresh i).node i
    ∀ d, n.metadata.descriptor? id = some d →
      ((∃ t ∈ n.types, t.name = d.crdtType) → (n.hosted.get? id).isSome) ∧
      (w.Agreed id → ∀ h, n.hosted.get? id = some h → h.Matches d ∧
        ∀ shard, n.distributor.plan.contains ⟨id, shard⟩ = true ↔ shard < h.shards.length) := by
  refine ⟨fun h hh => ⟨hw.exists_first hh, fun w' hsteps => exists_hosted_of_steps hsteps hh,
    fun hagreed d hd => hw.matches_of_agreed hh hd hagreed⟩, ?_⟩
  intro n d hd
  have hn : n = (w.node i).refreshTopology.1 := node_setNode_self
  have hd' : (w.node i).metadata.descriptor? id = some d := by
    rw [hn] at hd
    exact hd
  have hid : d.instanceId = id := (hw.sound.descriptor hd').1
  refine ⟨?_, fun hagreed h hh => ?_⟩
  · rintro ⟨t, ht, hname⟩
    rw [hn] at ht ⊢
    rw [← hid] at hd'
    exact hid ▸ Node.isSome_hostDescribed (hw.sound.mem_descriptors.mpr hd') ht hname
  · have hrefreshed : Reached l (w.refresh i) := hw.tail (.refresh i)
    have hm : h.Matches d := hrefreshed.matches_of_agreed hh hd hagreed
    refine ⟨hm, fun shard => ?_⟩
    rw [hn, hw.sound.contains_plan, hm.2]
    constructor
    · rintro ⟨d', hd'', hshard⟩
      rw [hd', Option.some.injEq] at hd''
      exact hd'' ▸ hshard
    · exact fun hshard => ⟨d, hd', hshard⟩

/-! ### Pushes are steps -/

/-- A push to a node makes it learn the writes, and refreshes its topology if they were news. -/
lemma exec_merge_instances {batch : Payload} {ds : List DescriptorWrite}
    (hbatch : Wire.decode batch = .ok ds) :
    (exec (Node.merge (.metadata .instances) batch) n).2 =
      if (mergeAll n.metadata.instances ds).2.isUpdated then (n.learn ds).refreshTopology.1
      else n.learn ds := by
  have hmerge : n.metadata.merge .instances batch =
      .ok ((n.learn ds).metadata, (mergeAll n.metadata.instances ds).2) := by
    rw [Metadata.merge, Encoded.merge, hbatch]
    rfl
  simp only [Node.merge, exec_bind, exec_get, exec_liftExcept, hmerge, exec_modify]
  split <;> rfl

lemma refresh_setNode : (w.setNode i n).refresh i = w.setNode i n.refreshTopology.1 := by
  rw [Fleet.refresh, node_setNode_self]
  simp [setNode]

/-- A push of what has been written is made of steps. -/
lemma steps_push {batch : Payload} {ds : List DescriptorWrite}
    (hbatch : Wire.decode batch = .ok ds) (hds : ∀ δ ∈ ds, δ ∈ w.written) :
    ReflTransGen Step w
      (w.setNode i (exec (Node.merge (.metadata .instances) batch) (w.node i)).2) := by
  have hlearn : Step w (w.setNode i ((w.node i).learn ds)) := .learn i ds hds
  rw [exec_merge_instances hbatch]
  split
  · rw [← refresh_setNode]
    exact .tail (.single hlearn) (.refresh i)
  · exact .single hlearn

/-! ### One id on two nodes -/

def twoLaunches (b : Bool) : Cluster.Launch where
  config := { nodeId := some (if b then "b" else "a")
              address := if b then "mem://b" else "mem://a" }
  freshId := ""
  types := [.orSet .string]
  propagation := Selection.verbatim
  rerouting := Selection.verbatim
  antiEntropy := Selection.verbatim
  online := true

def creation (b : Bool) (k : Nat) : DescriptorWrite :=
  .set "t" ((twoLaunches b).node.describe "t" (.orSet .string) (some k) (some 1))
    ⟨5, if b then "b" else "a"⟩

/-- `a` creates `t` with one shard, `b` does so with `k` shards without knowing of it, and then `b`
pushes its descriptor to `a`. -/
def crossed (k : Nat) : Fleet Bool :=
  let w : Fleet Bool :=
    { (launch twoLaunches).setNode false ((twoLaunches false).node.learn [creation false 1]) with
      written := [creation false 1] }
  let w := w.refresh false
  let w : Fleet Bool :=
    { w.setNode true ((twoLaunches true).node.learn [creation true k]) with
      written := w.written ++ [creation true k] }
  w.setNode false
    (exec (Node.merge (.metadata .instances) (Wire.encode [creation true k])) (w.node false)).2

lemma registerInstance_creation (b : Bool) (k : Nat) :
    (twoLaunches b).node.metadata.registerInstance 5
        ((twoLaunches b).node.describe "t" (.orSet .string) (some k) (some 1)) =
      .ok (((twoLaunches b).node.learn [creation b k]).metadata, some [creation b k]) := by
  cases b <;> rfl

lemma decode_creation {k : Nat} (hk : k < word16) :
    (Wire.decode (Wire.encode [creation true k]) : Except ClusterError (List DescriptorWrite)) =
      .ok [creation true k] := by
  refine LawfulWire.decode_encode (fun δ hδ => ?_) (by decide)
  rw [List.mem_singleton.mp hδ]
  have hshards : shardsOf k < word16 := by
    simp only [shardsOf, word16] at hk ⊢
    omega
  exact ⟨trivial, ⟨hshards, (by decide : 1 < word32)⟩, (by decide : 5 < word64)⟩

lemma reached_crossed {k : Nat} (hk : k < word16) : Reached twoLaunches (crossed k) := by
  have hcreate : ∀ {w : Fleet Bool} {b : Bool} (k : Nat), w.node b = (twoLaunches b).node →
      Step w { w.setNode b ((twoLaunches b).node.learn [creation b k]) with
        written := w.written ++ [creation b k] } := by
    intro w b k hb
    have hregister := registerInstance_creation b k
    rw [← hb] at hregister ⊢
    exact .create b hregister
  refine ReflTransGen.trans ?_ (steps_push (decode_creation hk) (by simp))
  exact .tail (.tail (.single (hcreate (w := launch twoLaunches) 1 rfl)) (.refresh false))
    (hcreate k rfl)

lemma hosted_crossed {k : Nat} (hk : k < word16) :
    ∃ h, ((crossed k).node false).hosted.get? "t" = some h ∧ h.shape = (.orSet .string, 1) := by
  have hbefore : (((twoLaunches false).node.learn [creation false 1]).refreshTopology.1.hosted.get?
      "t").map Hosted.shape = some (.orSet .string, 1) := by
    decide +kernel
  obtain ⟨h₀, hh₀, hshape₀⟩ := Option.map_eq_some_iff.mp hbefore
  have hsteps : ReflTransGen Step _ (crossed k) := steps_push (decode_creation hk) (by simp)
  obtain ⟨h, hh, hshape⟩ := exists_hosted_of_steps (i := false) hsteps hh₀
  exact ⟨h, hh, hshape.trans hshape₀⟩

lemma instances_crossed {k : Nat} (hk : k < word16) :
    ((crossed k).node false).metadata.instances =
      (mergeAll (mergeAll LwwRegistry.empty [creation false 1]).1 [creation true k]).1 := by
  rw [crossed, node_setNode_self, exec_merge_instances (decode_creation hk)]
  split <;> rfl

/-- Both have created `t` with one shard, so it does not matter whose descriptor wins. -/
theorem matches_after_equal_creation :
    ∃ w : Fleet Bool, Reached twoLaunches w ∧ w.Agreed "t" ∧
      ∃ h d, (w.node false).hosted.get? "t" = some h ∧
        (w.node false).metadata.descriptor? "t" = some d ∧ h.Matches d := by
  have hw : Reached twoLaunches (crossed 1) := reached_crossed (by decide)
  have hagreed : (crossed 1).Agreed "t" := by
    have hwritten : ∀ d s, .set "t" d s ∈ (crossed 1).written →
        d.crdtType = "orset<string>" ∧ d.shardCount = 1 := by
      intro d s hmem
      rcases List.mem_pair.mp hmem with heq | heq <;> cases heq <;> decide +kernel
    intro d d' s s' hd hd'
    obtain ⟨htype, hcount⟩ := hwritten d s hd
    obtain ⟨htype', hcount'⟩ := hwritten d' s' hd'
    exact ⟨htype.trans htype'.symm, hcount.trans hcount'.symm⟩
  obtain ⟨h, hh, -⟩ := hosted_crossed (show 1 < word16 by decide)
  have hd : ((crossed 1).node false).metadata.descriptor? "t" =
      some ⟨"t", "orset<string>", 1, 1⟩ := by
    rw [Metadata.descriptor?, instances_crossed (by decide)]
    decide +kernel
  exact ⟨crossed 1, hw, hagreed, h, _, hh, hd,
    ((hosted_by_first_descriptor twoLaunches hw false "t").1 h hh).2.2 hagreed _ hd⟩

/-- With two shards the descriptor of `b` wins on `a` as well, and placement follows it. But `a`
goes on hosting the one shard that it has made, also when its topology is refreshed. -/
theorem hosted_otherwise_than_described :
    ∃ w : Fleet Bool, Reached twoLaunches w ∧
      ∃ h d, ((w.refresh false).node false).hosted.get? "t" = some h ∧
        ((w.refresh false).node false).metadata.descriptor? "t" = some d ∧
        h.shards.length = 1 ∧ d.shardCount = 2 ∧
        ((w.refresh false).node false).distributor.plan.contains ⟨"t", 1⟩ = true := by
  have hw : Reached twoLaunches (crossed 2) := reached_crossed (by decide)
  obtain ⟨h, hh, hshape⟩ := hosted_crossed (show 2 < word16 by decide)
  have hd : ((crossed 2).node false).metadata.descriptor? "t" =
      some ⟨"t", "orset<string>", 2, 1⟩ := by
    rw [Metadata.descriptor?, instances_crossed (by decide)]
    decide +kernel
  have hrefreshed : ((crossed 2).refresh false).node false =
      ((crossed 2).node false).refreshTopology.1 := node_setNode_self
  refine ⟨crossed 2, hw, h, ⟨"t", "orset<string>", 2, 1⟩, ?_, ?_, (Prod.mk.inj hshape).2, rfl, ?_⟩
  · rw [hrefreshed]
    exact Node.get?_hostDescribed hh
  · rw [hrefreshed]
    exact hd
  · rw [hrefreshed, hw.sound.contains_plan]
    exact ⟨_, hd, by decide⟩

end Fleet

end DeltaRing
