import DeltaRing.Proofs.Cluster.Exec
import DeltaRing.Proofs.Node.Hosting
import DeltaRing.Proofs.Replication.Freshness
import DeltaRing.Proofs.Wire.Replicated
import Mathlib.Logic.Relation

/-!
Replicas that catch up with a checkpoint.

A restarted node keeps what its checkpoint says of a replica until the replica covers it. From then
on the replica reflects all that the checkpointed timestamp does, whatever the node does with it, so
its operations hand out nothing that the timestamp reflects. Before, nothing holds them back: the
dots of a replica that starts empty are counted from one again.
-/

namespace DeltaRing

open DeltaRing.Action Relation

namespace Node

inductive Step (n : Node) : Node → Prop
  /-- The node applies an operation. -/
  | operate {h h' : Hosted} {op : h.type.Operation} {output : h.type.Output}
    {δs : List h.type.Delta} : n.hosted.get? h.id = some h →
    h.apply n.info.id op = .ok (h', output, δs) → Step n (n.setHosted h')
  /-- Deltas that were pushed, or came in an exchange, are merged. -/
  | merge {h : Hosted} {shard : ShardId} {s : h.type.State} (ds : List h.type.Delta) :
    n.hosted.get? h.id = some h → h.shard shard = .ok s →
    Step n (n.setHosted (h.setShard shard (mergeAll s ds).1))
  | refresh : Step n n.refreshTopology.1
  | finish (r : ReplicaId) : Step n ((finishResume r).run n).2
  /-- Anything else about the node changes. -/
  | other {n' : Node} : n'.hosted = n.hosted → n'.resume = n.resume → Step n n'

variable {n n' : Node} {r : ReplicaId} {c : ReplicaCheckpoint} {ts : Payload} {h : Hosted}

def Holds (n : Node) (r : ReplicaId) (P : (t : CrdtType) → t.State → Prop) : Prop :=
  ∃ h s, n.hosted.get? r.instanceId = some h ∧ h.shard r.shard = .ok s ∧ P h.type s

/-- The replica reflects all that an encoded timestamp does. -/
def Regained (n : Node) (r : ReplicaId) (ts : Payload) : Prop :=
  ∃ h s, ∃ t : h.type.Timestamp, n.hosted.get? r.instanceId = some h ∧ h.shard r.shard = .ok s ∧
    Wire.decode ts = .ok t ∧
    ∀ δ : h.type.Delta, reflects t δ = true → reflects (timestamp s) δ = true

def Covered (n : Node) (r : ReplicaId) (ts : Payload) : Prop :=
  n.Holds r fun t s => ∃ x : t.Timestamp, Wire.decode ts = .ok x ∧
    Lattice.leq x (timestamp s) = true

/-- The replica has caught up with its checkpoint, or the node still keeps that. -/
def Guarded (n : Node) (r : ReplicaId) (c : ReplicaCheckpoint) : Prop :=
  n.resume.get? r = some c ∨ n.Regained r c.localTimestamp

section

variable {P : (t : CrdtType) → t.State → Prop}

lemma Holds.of_hosted (hholds : n.Holds r P)
    (hkept : ∀ h, n.hosted.get? r.instanceId = some h → n'.hosted.get? r.instanceId = some h) :
    n'.Holds r P := by
  obtain ⟨h, s, hh, hs, hP⟩ := hholds
  exact ⟨h, s, hkept h hh, hs, hP⟩

lemma holds_setShard (hid : h.id = r.instanceId) {s s' : h.type.State}
    (hs : h.shard r.shard = .ok s) (hP : P h.type s') :
    (n.setHosted (h.setShard r.shard s')).Holds r P :=
  ⟨h.setShard r.shard s', s', hid ▸ SortedMap.get?_insert_self, Hosted.shard_setShard_self hs, hP⟩

lemma Holds.setShard (hholds : n.Holds r P) (hh : n.hosted.get? h.id = some h) {shard : ShardId}
    {s s' : h.type.State} (hs : h.shard shard = .ok s) (hP : P h.type s → P h.type s') :
    (n.setHosted (h.setShard shard s')).Holds r P := by
  obtain ⟨h₀, s₀, hh₀, hs₀, hP₀⟩ := hholds
  by_cases hid : r.instanceId = h.id
  · rw [hid, hh] at hh₀
    cases hh₀
    by_cases hshard : shard = r.shard
    · subst hshard
      rw [hs] at hs₀
      cases hs₀
      exact holds_setShard hid.symm hs (hP hP₀)
    · exact ⟨h.setShard shard s', s₀, hid ▸ SortedMap.get?_insert_self,
        Hosted.shard_setShard_of_ne hshard hs₀, hP₀⟩
  · exact ⟨h₀, s₀, (SortedMap.get?_insert_of_ne (m := n.hosted) (k := h.id) hid).trans hh₀, hs₀,
      hP₀⟩

end

structure Stable (P : (t : CrdtType) → t.State → Prop) : Prop where
  mergeAll {t : CrdtType} {s : t.State} (ds : List t.Delta) :
    P t s → P t (DeltaRing.mergeAll s ds).1
  apply {t : CrdtType} {s : t.State} (a : Actor) (op : t.Operation) :
    P t s → P t (Operable.apply s a op).1

def Regains (ts : Payload) (t : CrdtType) (s : t.State) : Prop :=
  ∃ x : t.Timestamp, Wire.decode ts = .ok x ∧
    ∀ δ : t.Delta, reflects x δ = true → reflects (timestamp s) δ = true

lemma regained_iff : n.Regained r ts ↔ n.Holds r (Regains ts) :=
  ⟨fun ⟨h, s, x, hh, hs, hx⟩ => ⟨h, s, hh, hs, x, hx⟩,
    fun ⟨h, s, hh, hs, x, hx⟩ => ⟨h, s, x, hh, hs, hx⟩⟩

lemma Covered.regained (hcov : n.Covered r ts) : n.Regained r ts := by
  obtain ⟨h, s, hh, hs, x, hx, hleq⟩ := hcov
  exact ⟨h, s, x, hh, hs, hx, fun δ => Retentive.reflects_of_leq hleq⟩

lemma Regained.of_hosted (hreg : n.Regained r ts)
    (hkept : ∀ h, n.hosted.get? r.instanceId = some h → n'.hosted.get? r.instanceId = some h) :
    n'.Regained r ts :=
  regained_iff.mpr ((regained_iff.mp hreg).of_hosted hkept)

lemma exists_shard_of_apply {a : Actor} {op : h.type.Operation} {h' : Hosted}
    {output : h.type.Output} {δs : List h.type.Delta}
    (happly : h.apply a op = .ok (h', output, δs)) :
    ∃ s, h.shard (h.shardOfOperation op) = .ok s ∧
      h' = h.setShard (h.shardOfOperation op) (Operable.apply s a op).1 ∧
      δs = (Operable.apply s a op).2.2 := by
  cases hs : h.shard (h.shardOfOperation op) with
  | error e =>
    rw [Hosted.apply, hs] at happly
    cases happly
  | ok s =>
    rw [Hosted.apply_of_shard hs] at happly
    cases happly
    exact ⟨s, rfl, rfl, rfl⟩

/-! ### Hosting -/

/-- Looking for an instance refreshes the topology at most. -/
lemma exec_hostedInstance (id : InstanceId) (n : Node) :
    ((exec (hostedInstance id) n).2 = n ∨ (exec (hostedInstance id) n).2 = n.refreshTopology.1) ∧
      ∀ h, (exec (hostedInstance id) n).1 = .ok h →
        (exec (hostedInstance id) n).2.hosted.get? id = some h := by
  simp only [hostedInstance, exec_bind, exec_get]
  cases hh : n.hosted.get? id with
  | some h => exact ⟨.inl rfl, fun _ heq => by cases heq; exact hh⟩
  | none =>
    simp only [exec_bind, exec_modify, exec_get]
    cases hh' : n.refreshTopology.1.hosted.get? id with
    | some h => exact ⟨.inr rfl, fun _ heq => by cases heq; exact hh'⟩
    | none => exact ⟨.inr rfl, fun _ heq => by cases heq⟩

lemma get?_refreshTopology_of_hostedInstance {id : InstanceId} {h : Hosted}
    (hok : (exec (hostedInstance id) n).1 = .ok h) :
    n.refreshTopology.1.hosted.get? id = some h := by
  obtain ⟨hsame, hhosted⟩ := exec_hostedInstance id n
  have hh := hhosted h hok
  rcases hsame with heq | heq <;> rw [heq] at hh
  · exact get?_hostDescribed hh
  · exact hh

lemma exec_covers (r : ReplicaId) (ts : Payload) (n : Node) :
    ((exec (covers r ts) n).2 = n ∨ (exec (covers r ts) n).2 = n.refreshTopology.1) ∧
      ((exec (covers r ts) n).1 = .ok true → (exec (covers r ts) n).2.Covered r ts) := by
  obtain ⟨hsame, hhosted⟩ := exec_hostedInstance r.instanceId n
  rw [covers, exec_bind]
  cases hexec : exec (hostedInstance r.instanceId) n with
  | mk result n₁ =>
    rw [hexec] at hsame hhosted
    cases result with
    | error e => exact ⟨hsame, nofun⟩
    | ok h =>
      simp only [exec_liftExcept]
      refine ⟨hsame, fun hcovers => ?_⟩
      rw [Hosted.covers] at hcovers
      cases hs : h.shard r.shard with
      | error e =>
        rw [hs] at hcovers
        cases hcovers
      | ok s =>
        cases ht : (Wire.decode ts : Except ClusterError h.type.Timestamp) with
        | error e =>
          simp only [hs, Encoded.covers, ht] at hcovers
          cases hcovers
        | ok t =>
          simp only [hs, Encoded.covers, ht] at hcovers
          have hleq : Lattice.leq t (timestamp s) = true := Except.ok.inj hcovers
          exact ⟨h, s, hhosted h rfl, hs, t, ht, hleq⟩

lemma run_finishResume (r : ReplicaId) (n : Node) :
    (finishResume r).run n = match n.resume.get? r with
      | none => (false, n)
      | some c =>
        match exec (covers r c.localTimestamp) n with
        | (.ok true, n₁) => (true, { n₁ with resume := n₁.resume.erase r })
        | (_, n₁) => (false, n₁) := by
  simp only [finishResume, StateT.run_bind, StateT.run_get, pure_bind]
  cases n.resume.get? r with
  | none => rfl
  | some c =>
    simp only [StateT.run_bind, exec]
    generalize (covers r c.localTimestamp).run.run n = p
    obtain ⟨_ | _ | _, n₁⟩ := p <;> rfl

/-- A replica is taken off those that have to catch up only if it has. -/
lemma finishResume_cases (r : ReplicaId) (n : Node) :
    ((finishResume r).run n).2 = n ∨ ((finishResume r).run n).2 = n.refreshTopology.1 ∨
      ∃ c n₁, (n₁ = n ∨ n₁ = n.refreshTopology.1) ∧ n.resume.get? r = some c ∧
        n₁.Covered r c.localTimestamp ∧
        ((finishResume r).run n).2 = { n₁ with resume := n₁.resume.erase r } := by
  rw [run_finishResume]
  cases hc : n.resume.get? r with
  | none => exact .inl rfl
  | some c =>
    obtain ⟨hsame, hcov⟩ := exec_covers r c.localTimestamp n
    dsimp only
    split
    · rename_i n₁ hexec
      rw [hexec] at hsame hcov
      exact .inr (.inr ⟨c, n₁, hsame, rfl, hcov rfl, rfl⟩)
    · rename_i hexec
      rw [hexec] at hsame
      exact hsame.imp_right .inl

lemma hosted_finishResume (r : ReplicaId) (n : Node) :
    ((finishResume r).run n).2.hosted = n.hosted ∨
      ((finishResume r).run n).2.hosted = n.refreshTopology.1.hosted := by
  rcases finishResume_cases r n with heq | heq | ⟨c, n₁, hn₁, -, -, heq⟩ <;> rw [heq]
  · exact .inl rfl
  · exact .inr rfl
  · rcases hn₁ with rfl | rfl
    · exact .inl rfl
    · exact .inr rfl

/-! ### Whatever a node does -/

lemma Holds.step {P : (t : CrdtType) → t.State → Prop} (hholds : n.Holds r P) (hP : Stable P)
    (hstep : Step n n') : n'.Holds r P := by
  cases hstep with
  | operate hh happly =>
    obtain ⟨s, hs, rfl, -⟩ := exists_shard_of_apply happly
    exact hholds.setShard hh hs (hP.apply _ _)
  | merge ds hh hs => exact hholds.setShard hh hs (hP.mergeAll ds)
  | refresh => exact hholds.of_hosted fun _ hh => get?_hostDescribed hh
  | finish r' =>
    rcases hosted_finishResume r' n with heq | heq
    · exact hholds.of_hosted fun _ hh => heq ▸ hh
    · exact hholds.of_hosted fun _ hh => heq ▸ get?_hostDescribed hh
  | other hhosted _ => exact hholds.of_hosted fun _ hh => hhosted ▸ hh

lemma Holds.steps {P : (t : CrdtType) → t.State → Prop} (hholds : n.Holds r P) (hP : Stable P)
    (hsteps : ReflTransGen Step n n') : n'.Holds r P := by
  induction hsteps with
  | refl => exact hholds
  | tail _ hstep ih => exact ih.step hP hstep

lemma stable_regains (ts : Payload) : Stable (Regains ts) where
  mergeAll _ := fun ⟨x, hx, hle⟩ => ⟨x, hx, fun δ hδ => Retentive.reflects_mergeAll (hle δ hδ)⟩
  apply _ _ := fun ⟨x, hx, hle⟩ => ⟨x, hx, fun δ hδ => HandsOutNews.reflects_apply (hle δ hδ)⟩

lemma Guarded.refresh (hg : n.Guarded r c) : n.refreshTopology.1.Guarded r c :=
  hg.imp id fun hreg => hreg.of_hosted fun _ hh => get?_hostDescribed hh

lemma Guarded.finish (hg : n.Guarded r c) (r' : ReplicaId) :
    ((finishResume r').run n).2.Guarded r c := by
  rcases finishResume_cases r' n with heq | heq | ⟨c', n₁, hn₁, hc', hcov', heq⟩ <;> rw [heq]
  · exact hg
  · exact hg.refresh
  · have hg₁ : n₁.Guarded r c ∧ n₁.resume = n.resume := by
      rcases hn₁ with rfl | rfl
      · exact ⟨hg, rfl⟩
      · exact ⟨hg.refresh, rfl⟩
    rcases hg₁ with ⟨hc | hreg, hresume⟩
    · by_cases hr : r = r'
      · subst hr
        rw [hresume, hc', Option.some.injEq] at hc
        subst hc
        exact .inr (hcov'.regained.of_hosted fun _ => id)
      · exact .inl ((SortedMap.get?_erase_of_ne hr).trans hc)
    · exact .inr (hreg.of_hosted fun _ => id)

lemma Regained.step (hreg : n.Regained r ts) (hstep : Step n n') : n'.Regained r ts :=
  regained_iff.mpr ((regained_iff.mp hreg).step (stable_regains ts) hstep)

/-- No step loses what a checkpoint says before the replica has caught up with it. -/
lemma Guarded.step (hg : n.Guarded r c) (hstep : Step n n') : n'.Guarded r c := by
  rcases hg with hc | hreg
  · cases hstep with
    | operate _ _ => exact .inl hc
    | merge _ _ _ => exact .inl hc
    | refresh => exact .inl hc
    | finish r' => exact Guarded.finish (.inl hc) r'
    | other _ hresume => exact .inl (hresume ▸ hc)
  · exact .inr (hreg.step hstep)

lemma Guarded.steps (hg : n.Guarded r c) (hsteps : ReflTransGen Step n n') : n'.Guarded r c := by
  induction hsteps with
  | refl => exact hg
  | tail _ hstep ih => exact ih.step hstep

/-! ### Pushes are steps -/

lemma steps_hostedInstance (id : InstanceId) (n : Node) :
    ReflTransGen Step n (exec (hostedInstance id) n).2 := by
  rcases (exec_hostedInstance id n).1 with heq | heq <;> rw [heq]
  exact .single .refresh

/-- What is merged is what the batch is read as. -/
lemma exists_mergeAll_of_encoded {S D T : Type} [CausalTimestamp T D] [DeltaCrdt S D T] [Wire D]
    {s : S} {batch : Payload} {p : S × MergeResult} (hmerge : Encoded.merge s batch = .ok p) :
    ∃ ds : List D, Wire.decode batch = .ok ds ∧ p = mergeAll s ds := by
  rw [Encoded.merge] at hmerge
  cases hds : (Wire.decode batch : Except ClusterError (List D)) with
  | error e =>
    rw [hds] at hmerge
    cases hmerge
  | ok ds =>
    rw [hds] at hmerge
    cases hmerge
    exact ⟨ds, rfl, rfl⟩

lemma exists_mergeAll_of_merge {shard : ShardId} {batch : Payload} {p : Hosted × MergeResult}
    (hmerge : h.merge shard batch = .ok p) : ∃ s, ∃ ds : List h.type.Delta,
      h.shard shard = .ok s ∧ Wire.decode batch = .ok ds ∧
        p.1 = h.setShard shard (mergeAll s ds).1 := by
  rw [Hosted.merge] at hmerge
  cases hs : h.shard shard with
  | error e =>
    rw [hs] at hmerge
    cases hmerge
  | ok s =>
    rw [hs] at hmerge
    cases hencoded : Encoded.merge s batch with
    | error e =>
      change (Encoded.merge s batch >>= _) = _ at hmerge
      rw [hencoded] at hmerge
      cases hmerge
    | ok q =>
      change (Encoded.merge s batch >>= _) = _ at hmerge
      rw [hencoded] at hmerge
      cases hmerge
      obtain ⟨ds, hds, rfl⟩ := exists_mergeAll_of_encoded hencoded
      exact ⟨s, ds, rfl, hds, rfl⟩

lemma exists_mergeAll_of_mergeTable {m : Metadata} {k : MetadataKind} {batch : Payload}
    {p : Metadata × MergeResult} (hmerge : m.merge k batch = .ok p) :
    ∃ ds : List (Metadata.TableDelta k), Wire.decode batch = .ok ds ∧
      p.1 = m.setTable k (mergeAll (m.table k) ds).1 := by
  rw [Metadata.merge] at hmerge
  cases hencoded : Encoded.merge (m.table k) batch with
  | error e =>
    rw [hencoded] at hmerge
    cases hmerge
  | ok q =>
    rw [hencoded] at hmerge
    cases hmerge
    obtain ⟨ds, hds, rfl⟩ := exists_mergeAll_of_encoded hencoded
    exact ⟨ds, hds, rfl⟩

/-- Merging what was pushed is made of steps. -/
lemma steps_merge (hn : n.Named) (subject : Subject) (batch : Payload) :
    ReflTransGen Step n (exec (Node.merge subject batch) n).2 := by
  cases subject with
  | metadata k =>
    simp only [Node.merge, exec_bind, exec_get, exec_liftExcept]
    cases n.metadata.merge k batch with
    | error e => exact .refl
    | ok p =>
      have hother : Step n { n with metadata := p.1 } := .other rfl rfl
      simp only [exec_modify]
      split
      · exact .tail (.single hother) .refresh
      · exact .single hother
  | replica r =>
    obtain ⟨hsame, hhosted⟩ := exec_hostedInstance r.instanceId n
    have hsteps := steps_hostedInstance r.instanceId n
    simp only [Node.merge, exec_bind]
    cases hexec : exec (hostedInstance r.instanceId) n with
    | mk result n₁ =>
      rw [hexec] at hsame hhosted hsteps
      cases result with
      | error e => exact hsteps
      | ok h =>
        have hh := hhosted h rfl
        have hid : h.id = r.instanceId := by
          rcases hsame with rfl | rfl
          · exact hn _ h hh
          · exact hn.refresh _ h hh
        dsimp only
        rw [exec_liftExcept]
        cases hmerge : h.merge r.shard batch with
        | error e => exact hsteps
        | ok p =>
          obtain ⟨s, ds, hs, -, hp⟩ := exists_mergeAll_of_merge hmerge
          have hmerged : Step n₁ (n₁.setHosted p.1) := hp ▸ .merge ds (hid ▸ hh) hs
          exact hsteps.tail hmerged

/-- **What a node hands out after a replica has caught up is new.** A node starts out with a
checkpoint of a replica, and does whatever it does until the replica is off those that have to catch
up. Then no operation that the node applies to the replica hands out anything that the checkpointed
timestamp reflects. -/
theorem fresh_once_resumed {n₀ n : Node} {h h' : Hosted} {op : h.type.Operation}
    {output : h.type.Output} {δs : List h.type.Delta} (hc : n₀.resume.get? r = some c)
    (hsteps : ReflTransGen Step n₀ n) (hgone : n.resume.get? r = none)
    (hh : n.hosted.get? r.instanceId = some h) (hop : h.shardOfOperation op = r.shard)
    (happly : h.apply n.info.id op = .ok (h', output, δs)) :
    ∃ t : h.type.Timestamp, Wire.decode c.localTimestamp = .ok t ∧
      ∀ δ ∈ δs, reflects t δ = false := by
  have hg : n.Guarded r c := Guarded.steps (.inl hc) hsteps
  obtain ⟨h₀, s₀, t, hh₀, hs₀, ht, hle⟩ : n.Regained r c.localTimestamp := by
    rcases hg with hc | hreg
    · rw [hgone] at hc
      cases hc
    · exact hreg
  rw [hh] at hh₀
  cases hh₀
  obtain ⟨s, hs, -, rfl⟩ := exists_shard_of_apply happly
  rw [hop, hs₀] at hs
  cases hs
  refine ⟨t, ht, fun δ hδ => ?_⟩
  rw [← Bool.not_eq_true]
  intro hknown
  have hnew := HandsOutNews.not_reflects_of_apply hδ
  rw [hle δ hknown] at hnew
  cases hnew

/-! ### A node that has added an item before -/

def hostOf (s : OrSet String) : Node :=
  { create ⟨"c", "mem://c"⟩ {} [.orSet .string] Selection.verbatim Selection.verbatim
      Selection.verbatim with
    hosted := SortedMap.empty.insert "t" ⟨"t", .orSet .string, 1, [s]⟩ }

def firstAddition : OrSet String := (OrSet.empty.add "c" "x").1

def firstCheckpoint : ReplicaCheckpoint :=
  ⟨⟨"t", 0⟩, Wire.encode firstAddition.context, .empty⟩

lemma decode_firstCheckpoint :
    Wire.decode firstCheckpoint.localTimestamp =
      (.ok firstAddition.context : Except ClusterError CausalContext) := by
  refine LawfulWire.decode_encode (LawfulWire.fits_context_iff.mpr ?_) (by decide)
  decide +kernel

lemma shardOfOperation_hostOf (s : OrSet String) :
    (⟨"t", .orSet .string, 1, [s]⟩ : Hosted).shardOfOperation (OrSetOperation.add "y") = 0 := by
  have hshard := shardFor_lt "y" 1
  simp only [shardsOf] at hshard
  exact (by omega : shardFor "y" 1 = 0)

lemma shard_hostOf (s : OrSet String) :
    (⟨"t", .orSet .string, 1, [s]⟩ : Hosted).shard
      ((⟨"t", .orSet .string, 1, [s]⟩ : Hosted).shardOfOperation (OrSetOperation.add "y")) =
        .ok s := by
  rw [shardOfOperation_hostOf]
  rfl

/-- The node after a restart, when it has got its first addition back from a peer, counts on. -/
theorem fresh_after_catching_up :
    ∃ t : CausalContext, Wire.decode firstCheckpoint.localTimestamp =
        (.ok t : Except ClusterError CausalContext) ∧
      ∀ δ ∈ [OrSetDelta.add ⟨"c", 2⟩ "y"], reflects t δ = false := by
  let n := (hostOf firstAddition).restore ⟨some "c", 0, [firstCheckpoint]⟩
  have hcovers : exec (covers ⟨"t", 0⟩ firstCheckpoint.localTimestamp) n = (.ok true, n) := by
    have hhosted : exec (hostedInstance "t") n =
        (.ok ⟨"t", .orSet .string, 1, [firstAddition]⟩, n) := rfl
    have hleq : Encoded.covers firstAddition firstCheckpoint.localTimestamp = .ok true := by
      rw [Encoded.covers, decode_firstCheckpoint]
      decide +kernel
    rw [covers, exec_bind_ok hhosted, exec_liftExcept]
    exact congrArg (·, n) hleq
  have hc : n.resume.get? ⟨"t", 0⟩ = some firstCheckpoint := rfl
  have hstep : Step n { n with resume := n.resume.erase ⟨"t", 0⟩ } := by
    have hfinish := Step.finish (n := n) ⟨"t", 0⟩
    rw [run_finishResume, hc] at hfinish
    dsimp only at hfinish
    rwa [hcovers] at hfinish
  have happly := Hosted.apply_of_shard (a := "c") (shard_hostOf firstAddition)
  have hδs : (Operable.apply firstAddition "c" (OrSetOperation.add "y")).2.2 =
      [OrSetDelta.add ⟨"c", 2⟩ "y"] := by decide +kernel
  rw [← hδs]
  exact fresh_once_resumed hc (.single hstep) SortedMap.get?_erase_self rfl
    (shardOfOperation_hostOf firstAddition) happly

/-- Before, it uses the dot of its first addition again. -/
theorem reissued_before_catching_up :
    ((hostOf .empty).restore ⟨some "c", 0, [firstCheckpoint]⟩).pendingResume = [⟨"t", 0⟩] ∧
    (∃ h', (⟨"t", .orSet .string, 1, [OrSet.empty]⟩ : Hosted).apply "c" (OrSetOperation.add "y") =
      .ok (h', true, [OrSetDelta.add ⟨"c", 1⟩ "y"])) ∧
    ∃ t : CausalContext, Wire.decode firstCheckpoint.localTimestamp =
        (.ok t : Except ClusterError CausalContext) ∧
      reflects t (OrSetDelta.add ⟨"c", 1⟩ "y") = true := by
  refine ⟨rfl, ⟨_, Hosted.apply_of_shard (shard_hostOf .empty)⟩, _, decode_firstCheckpoint, ?_⟩
  decide +kernel

end Node

end DeltaRing
