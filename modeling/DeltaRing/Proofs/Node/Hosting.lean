import DeltaRing.Node
import DeltaRing.Proofs.Collections.SortedMap
import Mathlib.Data.List.Induction

/-!
What a node hosts after its topology is refreshed.

What was hosted stays as it is. Beside it the node hosts every instance that is described and of a
known type, made from the first descriptor of its id.
-/

namespace DeltaRing.Node

variable {n : Node} {types : List CrdtType} {hosted : SortedMap InstanceId Hosted}
  {ds : List InstanceDescriptor} {id : InstanceId} {h : Hosted} {d : InstanceDescriptor}

/-- Hosts one described instance, if none is hosted under its id and its type is known. -/
def hostOne (types : List CrdtType) (hosted : SortedMap InstanceId Hosted)
    (d : InstanceDescriptor) : SortedMap InstanceId Hosted :=
  if hosted.contains d.instanceId then hosted
  else
    match types.find? fun t => t.name = d.crdtType with
    | some t => hosted.insert d.instanceId (.ofDescriptor t d)
    | none => hosted

lemma hosted_hostDescribed :
    n.hostDescribed.hosted = n.metadata.descriptors.foldl (hostOne n.types) n.hosted := rfl

lemma hostOne_cases (hh : (hostOne types hosted d).get? id = some h) :
    hosted.get? id = some h ∨ hosted.get? id = none ∧ d.instanceId = id ∧
      ∃ t ∈ types, t.name = d.crdtType ∧ h = .ofDescriptor t d := by
  rw [hostOne] at hh
  split at hh
  · exact .inl hh
  · rename_i hnew
    split at hh
    · rename_i t ht
      by_cases hid : id = d.instanceId
      · subst hid
        rw [SortedMap.get?_insert_self, Option.some.injEq] at hh
        exact .inr ⟨by simpa [SortedMap.contains] using hnew, rfl, t, List.mem_of_find?_eq_some ht,
          by simpa using List.find?_some ht, hh.symm⟩
      · rw [SortedMap.get?_insert_of_ne hid] at hh
        exact .inl hh
    · exact .inl hh

lemma get?_hostOne (hh : hosted.get? id = some h) : (hostOne types hosted d).get? id = some h := by
  rw [hostOne]
  split
  · exact hh
  · rename_i hnew
    split
    · have hne : id ≠ d.instanceId := by
        rintro rfl
        simp [SortedMap.contains, hh] at hnew
      rw [SortedMap.get?_insert_of_ne hne, hh]
    · exact hh

lemma isSome_hostOne {t : CrdtType} (ht : t ∈ types) (hname : t.name = d.crdtType) :
    ((hostOne types hosted d).get? d.instanceId).isSome := by
  rw [hostOne]
  split
  · rename_i hold
    exact hold
  · have hfind : (types.find? fun t => t.name = d.crdtType).isSome :=
      List.find?_isSome.mpr ⟨t, ht, by simpa using hname⟩
    obtain ⟨t', ht'⟩ := Option.isSome_iff_exists.mp hfind
    simp [ht']

lemma get?_foldl_hostOne (hh : hosted.get? id = some h) :
    (ds.foldl (hostOne types) hosted).get? id = some h := by
  induction ds generalizing hosted with
  | nil => exact hh
  | cons d ds ih => exact ih (get?_hostOne hh)

lemma get?_hostDescribed (hh : n.hosted.get? id = some h) :
    n.hostDescribed.hosted.get? id = some h :=
  get?_foldl_hostOne hh

/-- What is hosted was hosted before, or is made from a descriptor of a known type. -/
lemma hostDescribed_cases (hh : n.hostDescribed.hosted.get? id = some h) :
    n.hosted.get? id = some h ∨ n.hosted.get? id = none ∧ ∃ d ∈ n.metadata.descriptors,
      d.instanceId = id ∧ ∃ t ∈ n.types, t.name = d.crdtType ∧ h = .ofDescriptor t d := by
  rw [hosted_hostDescribed] at hh
  generalize n.metadata.descriptors = ds at hh ⊢
  induction ds using List.reverseRecOn with
  | nil => exact .inl hh
  | append_singleton ds d ih =>
    rw [List.foldl_append] at hh
    rcases hostOne_cases hh with hh | ⟨hnone, hid, hmade⟩
    · exact (ih hh).imp_right fun ⟨hnew, d', hd', hmade⟩ => ⟨hnew, d', by simp [hd'], hmade⟩
    · -- nothing was hosted when the last descriptor was taken up, hence neither at the start
      refine .inr ⟨?_, d, by simp, hid, hmade⟩
      cases hstart : n.hosted.get? id with
      | none => rfl
      | some h₀ =>
        rw [get?_foldl_hostOne hstart] at hnone
        cases hnone

lemma isSome_hostDescribed (hd : d ∈ n.metadata.descriptors) {t : CrdtType} (ht : t ∈ n.types)
    (hname : t.name = d.crdtType) : (n.hostDescribed.hosted.get? d.instanceId).isSome := by
  obtain ⟨past, rest, hds⟩ := List.append_of_mem hd
  rw [hosted_hostDescribed, hds, List.foldl_append, List.foldl_cons]
  generalize past.foldl (hostOne n.types) n.hosted = hosted
  obtain ⟨h, hh⟩ : ∃ h, (hostOne n.types hosted d).get? d.instanceId = some h :=
    Option.isSome_iff_exists.mp (isSome_hostOne ht hname)
  exact Option.isSome_iff_exists.mpr ⟨h, get?_foldl_hostOne hh⟩

def Named (n : Node) : Prop := ∀ id h, n.hosted.get? id = some h → h.id = id

lemma Named.refresh (hn : n.Named) : n.refreshTopology.1.Named := by
  intro id h hh
  rcases hostDescribed_cases hh with hh | ⟨-, d, -, hid, t, -, -, rfl⟩
  · exact hn id h hh
  · exact hid

lemma Named.setHosted (hn : n.Named) (h : Hosted) : (n.setHosted h).Named := by
  intro id h' hh
  by_cases hid : id = h.id
  · subst hid
    rw [Node.setHosted, SortedMap.get?_insert_self, Option.some.injEq] at hh
    rw [hh]
  · rw [Node.setHosted, SortedMap.get?_insert_of_ne hid] at hh
    exact hn id h' hh

lemma Named.of_hosted {n' : Node} (hn : n.Named) (hhosted : n'.hosted = n.hosted) : n'.Named := by
  intro id h hh
  rw [hhosted] at hh
  exact hn id h hh

/-! ### What holds of all shards -/

lemma mem_of_shard {shard : ShardId} {s : h.type.State} (hs : h.shard shard = .ok s) :
    s ∈ h.shards := by
  rw [Hosted.shard] at hs
  split at hs
  · rename_i s' hs'
    cases hs
    exact List.mem_of_getElem? hs'
  · cases hs

section

variable {P : (t : CrdtType) → t.State → Prop}

def AllShards (n : Node) (P : (t : CrdtType) → t.State → Prop) : Prop :=
  ∀ id h, n.hosted.get? id = some h → ∀ s ∈ h.shards, P h.type s

lemma AllShards.of_shard (hn : n.AllShards P) (hh : n.hosted.get? id = some h) {shard : ShardId}
    {s : h.type.State} (hs : h.shard shard = .ok s) : P h.type s :=
  hn id h hh s (mem_of_shard hs)

lemma AllShards.setShard (hn : n.AllShards P) (hh : n.hosted.get? h.id = some h) {shard : ShardId}
    {s : h.type.State} (hs : P h.type s) : (n.setHosted (h.setShard shard s)).AllShards P := by
  intro id h' hh' s' hs'
  by_cases hid : id = h.id
  · subst hid
    rw [setHosted, Hosted.setShard, SortedMap.get?_insert_self, Option.some.injEq] at hh'
    subst hh'
    rcases List.mem_or_eq_of_mem_set hs' with hold | hnew
    · exact hn _ h hh s' hold
    · exact hnew ▸ hs
  · rw [setHosted, SortedMap.get?_insert_of_ne (by exact hid)] at hh'
    exact hn id h' hh' s' hs'

lemma AllShards.refresh (hn : n.AllShards P) (hinitial : ∀ t, P t initial) :
    n.refreshTopology.1.AllShards P := by
  intro id h hh s hs
  rcases hostDescribed_cases hh with hh | ⟨-, d, -, -, t, -, -, rfl⟩
  · exact hn id h hh s hs
  · exact List.eq_of_mem_replicate hs ▸ hinitial t

lemma AllShards.of_hosted {n' : Node} (hn : n.AllShards P) (hhosted : n'.hosted = n.hosted) :
    n'.AllShards P := by
  intro id h hh
  rw [hhosted] at hh
  exact hn id h hh

end

end DeltaRing.Node
