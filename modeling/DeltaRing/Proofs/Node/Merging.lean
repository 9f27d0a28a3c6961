import DeltaRing.Proofs.Node.Resume
import DeltaRing.Proofs.Placement.Selection
import DeltaRing.Proofs.Replication.Absorption

/-!
What merging a batch makes of a node.

A node that has merged a batch has heard it: the shard reflects all of it, so to merge it again is
no news and changes nothing. Besides the shard only the placement of the node may change, because
an instance that it does not host makes it refresh its topology, and to do that again makes no other
plan.
-/

namespace DeltaRing

open DeltaRing.Action

/-- Taking a view again makes no other plan. -/
lemma Distributor.plan_update_update (d : Distributor) (view : ClusterView) :
    ((d.update view).1.update view).1.plan = (d.update view).1.plan := by
  set kept := 0 < d.epoch && !d.isMeaningful (Placement.ringOf view.nodes)
    (SortedMap.ofList (view.replicas.map fun info => (info.replica, info))) view.holders with hkept
  cases h : kept with
  | true =>
    have hsame : (d.update view).1 = d := by
      rw [update, if_pos (hkept ▸ h)]
    rw [hsame, hsame]
  | false =>
    have hnew : ¬(kept = true) := by simp [h]
    rw [update, update, if_neg hnew]
    split <;> rfl

namespace Node

variable {n : Node} {r : ReplicaId} {batch : Payload} {ids : List NodeId}

/-- A state reflects all deltas that an encoded batch is read as. -/
def Heard (batch : Payload) (t : CrdtType) (s : t.State) : Prop :=
  ∀ ds : List t.Delta, Wire.decode batch = .ok ds → ∀ δ ∈ ds, reflects (timestamp s) δ = true

/-- To merge a batch again is no news and changes nothing. -/
lemma exec_merge_of_heard (hn : n.Named) (hheard : n.Holds r (Heard batch)) :
    ∃ result, exec (merge (.replica r) batch) n = (result, n) ∧ result ≠ .ok .updated := by
  obtain ⟨h, s, hh, hs, hreflects⟩ := hheard
  cases hds : (Wire.decode batch : Except ClusterError (List h.type.Delta)) with
  | error e => exact ⟨_, exec_merge_of_undecodable hh hs hds, by simp⟩
  | ok ds =>
    have hsame : h.setShard r.shard s = h := by
      obtain ⟨hlt, hget⟩ := List.getElem?_eq_some_iff.mp (Hosted.shard_eq_ok.mp hs)
      rw [Hosted.setShard, ← hget, List.set_getElem_self]
    refine ⟨.ok .unchanged, ?_, by simp⟩
    rw [exec_merge_hosted hh hs hds, mergeAll_of_reflects (hreflects ds hds), hsame, setHosted,
      hn _ h hh, SortedMap.insert_of_get? hh]

lemma exec_merge_of_get? {h : Hosted} (hh : n.hosted.get? r.instanceId = some h)
    (hid : h.id = r.instanceId) :
    (∃ e, exec (merge (.replica r) batch) n = (.error e, n)) ∨
      ∃ h' result, exec (merge (.replica r) batch) n = (.ok result, n.setHosted h') ∧
        h'.id = r.instanceId ∧ (n.setHosted h').Holds r (Heard batch) := by
  cases hs : h.shard r.shard with
  | error e =>
    have hmerge : h.merge r.shard batch = .error e := by
      rw [Hosted.merge, hs]
      rfl
    refine .inl ⟨e, ?_⟩
    rw [merge, exec_bind_ok (exec_hostedInstance_of_get? hh), exec_bind, exec_liftExcept, hmerge]
  | ok s =>
    cases hds : (Wire.decode batch : Except ClusterError (List h.type.Delta)) with
    | error e => exact .inl ⟨e, exec_merge_of_undecodable hh hs hds⟩
    | ok ds =>
      refine .inr ⟨_, _, exec_merge_hosted hh hs hds, hid, holds_setShard hid hs ?_⟩
      intro ds' hds' δ hδ
      obtain rfl := Except.ok.inj (hds.symm.trans hds')
      exact reflects_mergeAll_of_mem hδ

/-- A node fails to merge a batch or has heard it then, once it has refreshed its topology if it
does not host the instance. -/
lemma exec_merge_replica (hn : n.Named) (r : ReplicaId) (batch : Payload) :
    ∃ n₁, (n₁ = n ∨ n.hosted.get? r.instanceId = none ∧ n₁ = n.refreshTopology.1) ∧
      ((∃ e, exec (merge (.replica r) batch) n = (.error e, n₁)) ∨
        ∃ h result, exec (merge (.replica r) batch) n = (.ok result, n₁.setHosted h) ∧
          h.id = r.instanceId ∧ (n₁.setHosted h).Holds r (Heard batch)) := by
  obtain ⟨hsame, hhosted⟩ := exec_hostedInstance r.instanceId n
  cases hexec : exec (hostedInstance r.instanceId) n with
  | mk result n₁ =>
    rw [hexec] at hsame hhosted
    have hrefreshed : n₁ = n ∨ n.hosted.get? r.instanceId = none ∧ n₁ = n.refreshTopology.1 := by
      cases hh : n.hosted.get? r.instanceId with
      | some h =>
        rw [exec_hostedInstance_of_get? hh] at hexec
        cases hexec
        exact .inl rfl
      | none => exact hsame.imp_right fun heq => ⟨rfl, heq⟩
    refine ⟨n₁, hrefreshed, ?_⟩
    cases result with
    | error e => exact .inl ⟨e, exec_bind_error hexec⟩
    | ok h =>
      have hh := hhosted h rfl
      have hid : h.id = r.instanceId := by
        rcases hsame with rfl | rfl
        · exact hn _ h hh
        · exact hn.refresh _ h hh
      have hthere : exec (merge (.replica r) batch) n = exec (merge (.replica r) batch) n₁ := by
        rw [merge, exec_bind_ok hexec, exec_bind_ok (exec_hostedInstance_of_get? hh)]
      rw [hthere]
      exact exec_merge_of_get? hh hid

/-! ### Placement -/

lemma writeReplicas_refresh_refresh (n : Node) (r : ReplicaId) :
    n.refreshTopology.1.refreshTopology.1.distributor.writeReplicas r =
      n.refreshTopology.1.distributor.writeReplicas r := by
  change (((n.distributor.update (view n.metadata)).1.update (view n.metadata)).1.plan.getD r
    default).write = _
  rw [Distributor.plan_update_update]
  rfl

/-- A node picks peers among those that its plan names, now or once it has refreshed its topology
because it does not host the instance, and their ids are in a list as its own is. -/
structure Placed (n : Node) (ids : List NodeId) (r : ReplicaId) : Prop where
  named : n.Named
  picks : Selection.Picks n.propagation
  here : n.info.id ∈ ids
  planned : ∀ w ∈ n.distributor.writeReplicas r, w.id ∈ ids
  replanned : n.hosted.get? r.instanceId = none →
    ∀ w ∈ n.refreshTopology.1.distributor.writeReplicas r, w.id ∈ ids

namespace Placed

lemma refresh (h : n.Placed ids r) (hnone : n.hosted.get? r.instanceId = none) :
    n.refreshTopology.1.Placed ids r where
  named := h.named.refresh
  picks := h.picks
  here := h.here
  planned := h.replanned hnone
  replanned _ := by
    rw [writeReplicas_refresh_refresh]
    exact h.replanned hnone

lemma setHosted (h : n.Placed ids r) (hosted : Hosted) : (n.setHosted hosted).Placed ids r where
  named := h.named.setHosted hosted
  picks := h.picks
  here := h.here
  planned := h.planned
  replanned hnone := by
    refine h.replanned ?_
    by_cases hid : r.instanceId = hosted.id
    · rw [Node.setHosted, hid, SortedMap.get?_insert_self] at hnone
      cases hnone
    · exact (SortedMap.get?_insert_of_ne hid).symm.trans hnone

lemma setOutbox (h : n.Placed ids r) (outbox : Outbox) : { n with outbox }.Placed ids r :=
  ⟨h.named.of_hosted rfl, h.picks, h.here, h.planned, h.replanned⟩

/-- Merging a batch leaves alone what the node believes of its peers and owes them. -/
lemma merge (h : n.Placed ids r) (batch : Payload) :
    (exec (Node.merge (.replica r) batch) n).2.Placed ids r ∧
      (exec (Node.merge (.replica r) batch) n).2.outbox = n.outbox := by
  obtain ⟨n₁, hn₁, hmerged⟩ := exec_merge_replica h.named r batch
  have hplaced : n₁.Placed ids r ∧ n₁.outbox = n.outbox := by
    rcases hn₁ with rfl | ⟨hnone, rfl⟩
    · exact ⟨h, rfl⟩
    · exact ⟨h.refresh hnone, rfl⟩
  rcases hmerged with ⟨e, heq⟩ | ⟨hosted, result, heq, -, -⟩ <;> rw [heq]
  · exact hplaced
  · exact ⟨hplaced.1.setHosted hosted, hplaced.2⟩

end Placed

end Node

end DeltaRing
