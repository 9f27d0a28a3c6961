import DeltaRing.Proofs.Node.Hosting
import DeltaRing.Proofs.Placement.Keeping

/-!
A node that its own metadata tell nothing new.

Once a node hosts what is described and has taken its metadata to placement, to refresh the topology
again changes nothing. And once the sizes that it reports are the ones on record, to record them
again writes nothing, and the clock is not even read.
-/

namespace DeltaRing

lemma NodeConfig.sizeChangeThreshold_of_validate {c : NodeConfig} (h : c.validate = .ok ()) :
    ¬c.sizeChangeThreshold < 0 := by
  rw [validate] at h
  split at h
  · cases h
  · rename_i hkept
    have hlast := List.find?_eq_none.mp hkept
      ⟨fun c => !c.sizeChangeThreshold.isFinite || c.sizeChangeThreshold < 0,
        "size_change_threshold must be a finite, non-negative number"⟩ (by simp [rules])
    simp only [Bool.or_eq_true, decide_eq_true_eq, not_or] at hlast
    exact hlast.2

lemma foldlM_eq_ok_self {ε σ α : Type} {f : σ → α → Except ε σ} {s : σ} {l : List α}
    (h : ∀ x ∈ l, f s x = .ok s) : l.foldlM f s = .ok s := by
  induction l with
  | nil => rfl
  | cons x l ih =>
    obtain ⟨hx, hl⟩ := List.forall_mem_cons.mp h
    rw [List.foldlM_cons, hx]
    exact ih hl

namespace Metadata

variable {m : Metadata} {clock : Int}

lemma replaceEntry_of_get? {K V : Type} [Key K] [DecidableEq V] {actor : Actor}
    {r : LwwRegistry K V} {key : K} {value : V} (h : r.get? key = some value) :
    replaceEntry actor clock r key value = .ok (r, none) := by
  rw [replaceEntry, if_pos h]

lemma recordSizes_of_recorded {reports : List (ReplicaHolding × Nat)}
    (h : ∀ e ∈ reports, m.sizes.get? e.1 = some e.2) :
    m.recordSizes clock reports = .ok (m, none) := by
  rw [recordSizes, foldlM_eq_ok_self]
  · rfl
  · intro e he
    dsimp only
    rw [replaceEntry_of_get? (h e he)]
    rfl

end Metadata

namespace Node

variable {n : Node} {clock : Int}

/-- The node hosts what is described, as far as it knows the types, and placement has its metadata,
whatever it had before. -/
structure Settled (n : Node) : Prop where
  hosts : ∀ d ∈ n.metadata.descriptors, ∀ t ∈ n.types, t.name = d.crdtType →
    (n.hosted.get? d.instanceId).isSome
  planned : ∃ past, n.distributor =
    (Distributor.ofThreshold Placement.ringDistribution n.config.sizeChangeThreshold).feed
      (past ++ [view n.metadata])

lemma Settled.hostDescribed (h : n.Settled) : n.hostDescribed = n := by
  have hsame : ∀ ds : List InstanceDescriptor, (∀ d ∈ ds, d ∈ n.metadata.descriptors) →
      ds.foldl (hostOne n.types) n.hosted = n.hosted := by
    intro ds hds
    induction ds with
    | nil => rfl
    | cons d ds ih =>
      obtain ⟨hd, hds⟩ := List.forall_mem_cons.mp hds
      have hone : hostOne n.types n.hosted d = n.hosted := by
        rw [hostOne]
        split
        · rfl
        · rename_i hnew
          split
          · rename_i t ht
            exact absurd (h.hosts d hd t (List.mem_of_find?_eq_some ht)
              (by simpa using List.find?_some ht)) hnew
          · rfl
      rw [List.foldl_cons, hone, ih hds]
  change { n with hosted := n.metadata.descriptors.foldl (hostOne n.types) n.hosted } = n
  rw [hsame _ fun _ => id]

/-- **To refresh the topology of a settled node changes nothing.** -/
theorem Settled.refreshTopology (h : n.Settled) (hvalid : n.config.validate = .ok ()) :
    n.refreshTopology = (n, false) := by
  obtain ⟨past, hplanned⟩ := h.planned
  have hupdate : n.distributor.update (view n.metadata) = (n.distributor, false) := by
    rw [hplanned, Distributor.feed_append]
    refine Distributor.update_update ?_
    rw [Distributor.feed_threshold]
    exact NodeConfig.sizeChangeThreshold_of_validate hvalid
  rw [Node.refreshTopology, h.hostDescribed, hupdate]

lemma recordSizes_of_recorded (h : ∀ e ∈ n.sizeReports, n.metadata.sizes.get? e.1 = some e.2) :
    n.recordSizes clock = .ok (n, none) := by
  rw [recordSizes, Metadata.recordSizes_of_recorded h]
  rfl

/-- Whoever reads a replica by the plan of a settled node is a member. -/
lemma Settled.mem_members (h : n.Settled) {r : ReplicaId} {w : NodeInfo}
    (hw : w ∈ n.distributor.readReplicas r) : w ∈ n.metadata.members := by
  obtain ⟨past, hplanned⟩ := h.planned
  rw [hplanned] at hw
  exact Distributor.mem_nodes_of_mem_readReplicas _ hw

end Node

end DeltaRing
