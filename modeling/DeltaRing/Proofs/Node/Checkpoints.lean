import DeltaRing.Proofs.Cluster.Evolution
import DeltaRing.Proofs.Replication.Growth
import DeltaRing.Proofs.Wire.Records
import Mathlib.Data.List.Chain

/-!
What a node saves, over all its lives.

A node that restarts has lost its replicas. It takes up the last checkpoint that it has saved, and
what that says of a replica goes into the next checkpoint too, until the replica has got back to it.
So what is saved of a replica never falls back, however often the node restarts before it has caught
up, and whether it hosts the replica again by then or not.
-/

namespace DeltaRing

open DeltaRing.Action Relation

namespace Cluster

inductive Activity (c : Cluster) : Cluster → Prop
  /-- An operation enters at a node that hosts its instance. -/
  | operation {seat : Seat} {n : Node} {h : Hosted} (op : h.type.Operation)
    (ctx : OperationContext) : c.nodes.get? seat = some n → n.hosted.get? h.id = some h →
    Activity c (exec (applyWith seat h op ctx) c).2
  /-- An operation is forwarded to a node. -/
  | forwarded (seat : Seat) (r : ReplicaId) (operation : Payload) (ctx : OperationContext) :
    Activity c (exec (handleOperation seat r operation ctx) c).2
  | push (seat : Seat) (p : Push) : Activity c (exec (handlePush seat p) c).2
  | round (seat : Seat) : Activity c (exec (syncRound seat) c).2

lemma Activity.evolves {c c' : Cluster} (h : c.Activity c') : c.Evolves c' := by
  cases h with
  | operation op ctx hn hh => exact evolves_applyBy keeps_call hn (fun _ => hh) op ctx
  | forwarded seat r operation ctx => exact keeps_executeBy keeps_call seat r operation ctx c
  | push seat p => exact keeps_receive keeps_push seat p c
  | round seat => exact keeps_syncRound seat c

end Cluster

namespace Node

/-- A node and the checkpoints that it has saved so far, the last one first, each with the node as
it was then. -/
structure Life where
  node : Node
  saved : List (Node × Checkpoint)

namespace Life

def last? (l : Life) : Option Checkpoint := l.saved.head?.map Prod.snd

/-- A node without replicas takes up the checkpoint that was saved last, if there is any. -/
def takeUp (l : Life) (n : Node) : Node := l.last?.elim n n.restore

inductive Moves (l : Life) : Life → Prop
  /-- Something happens in a cluster that the node is part of, there or elsewhere. -/
  | act {c c' : Cluster} {seat : Seat} {n : Node} : c.nodes.get? seat = some l.node →
    c.Activity c' → c'.nodes.get? seat = some n → Moves l ⟨n, l.saved⟩
  | refresh : Moves l ⟨l.node.refreshTopology.1, l.saved⟩
  /-- What the node knows and how it is set up changes. -/
  | other {n : Node} : n.hosted = l.node.hosted → n.resume = l.node.resume →
    n.info.id = l.node.info.id → Moves l ⟨n, l.saved⟩
  | save (time : Nat) : Moves l ⟨((checkpoint time).run l.node).2,
    (((checkpoint time).run l.node).2, ((checkpoint time).run l.node).1) :: l.saved⟩
  | restart {n : Node} : n.info.id = l.node.info.id → n.hosted = .empty → n.resume = .empty →
    Moves l ⟨l.takeUp n, l.saved⟩

def Lived (l : Life) : Prop :=
  ∃ n : Node, n.hosted = .empty ∧ n.resume = .empty ∧ ReflTransGen Moves ⟨n, []⟩ l

end Life

variable {n n' : Node} {r : ReplicaId} {ts : Payload} {h : Hosted}

/-- The payload is what the timestamp is written as, or it is read as the timestamp. -/
def Denotes {t : CrdtType} (ts : Payload) (x : t.Timestamp) : Prop :=
  ts = Wire.encode x ∨ Wire.decode ts = .ok x

/-- What a node saves of a replica is no less than what was saved of it before: it is the same, or
what the replica has reached, which is above it. -/
inductive Advances (n : Node) (r : ReplicaId) (ts : Payload) : Payload → Prop
  | same {t : CrdtType} {x : t.Timestamp} : Denotes ts x → Lattice.leq x x = true →
    Advances n r ts ts
  | reached {h : Hosted} {s : h.type.State} {x : h.type.Timestamp} :
    n.hosted.get? r.instanceId = some h → h.shard r.shard = .ok s → Denotes ts x →
    Lattice.leq x (timestamp s) = true → Advances n r ts (Encoded.timestampOf s)

/-! ### Timestamps of replicas -/

def Sane (n : Node) : Prop :=
  ∀ id h, n.hosted.get? id = some h → ∀ s ∈ h.shards, IsCanonical (timestamp s)

lemma Sane.setShard (hsane : n.Sane) (hh : n.hosted.get? h.id = some h) {shard : ShardId}
    {s : h.type.State} (hs : IsCanonical (timestamp s)) :
    (n.setHosted (h.setShard shard s)).Sane :=
  AllShards.setShard (P := fun _ s => IsCanonical (timestamp s)) hsane hh hs

lemma Sane.refresh (hsane : n.Sane) : n.refreshTopology.1.Sane :=
  AllShards.refresh (P := fun _ s => IsCanonical (timestamp s)) hsane fun _ =>
    Growing.canonical_initial

lemma Sane.of_hosted (hsane : n.Sane) (hhosted : n'.hosted = n.hosted) : n'.Sane :=
  AllShards.of_hosted (P := fun _ s => IsCanonical (timestamp s)) hsane hhosted

lemma Sane.step (hsane : n.Sane) (hstep : Step n n') : n'.Sane := by
  cases hstep with
  | operate hh happly =>
    obtain ⟨s, hs, rfl, -⟩ := exists_shard_of_apply happly
    have hcanonical := hsane _ _ hh s (mem_of_shard hs)
    exact hsane.setShard hh (GrowingByOperations.growsTo_apply hcanonical).canonical
  | merge ds hh hs =>
    exact hsane.setShard hh (growsTo_mergeAll (hsane _ _ hh _ (mem_of_shard hs))).canonical
  | refresh => exact hsane.refresh
  | finish r =>
    rcases hosted_finishResume r n with heq | heq
    · exact hsane.of_hosted heq
    · exact hsane.refresh.of_hosted heq
  | other hhosted _ => exact hsane.of_hosted hhosted

/-- The timestamp of a state is canonical, and above one that a payload is read as. -/
def Above (Reads : (t : CrdtType) → t.Timestamp → Prop) (t : CrdtType) (s : t.State) : Prop :=
  IsCanonical (timestamp s) ∧ ∃ x, Reads t x ∧ Lattice.leq x (timestamp s) = true

section

variable {Reads : (t : CrdtType) → t.Timestamp → Prop}

lemma Above.of_growsTo {t : CrdtType} {s s' : t.State} (habove : Above Reads t s)
    (hgrows : GrowsTo (timestamp s) (timestamp s')) : Above Reads t s' := by
  obtain ⟨hcanonical, x, hx, hle⟩ := habove
  exact ⟨hgrows.canonical, x, hx, hgrows.leq_of_leq hcanonical hle⟩

lemma stable_above : Stable (Above Reads) where
  mergeAll _ habove := habove.of_growsTo (growsTo_mergeAll habove.1)
  apply _ _ habove := habove.of_growsTo (GrowingByOperations.growsTo_apply habove.1)

lemma Covered.above (hcov : n.Covered r ts) (hsane : n.Sane)
    (hreads : ∀ (t : CrdtType) (x : t.Timestamp), Wire.decode ts = .ok x → Reads t x) :
    n.Holds r (Above Reads) := by
  obtain ⟨h, s, hh, hs, x, hx, hle⟩ := hcov
  exact ⟨h, s, hh, hs, hsane _ h hh s (mem_of_shard hs), x, hreads _ x hx, hle⟩

/-! ### Targets -/

/-- The node still has to get back to a timestamp with a replica. -/
def Awaits (n : Node) (r : ReplicaId) (ts : Payload) : Prop :=
  ∃ e, n.resume.get? r = some e ∧ e.localTimestamp = ts

lemma resume_step (hstep : Step n n') {e : ReplicaCheckpoint}
    (he : n'.resume.get? r = some e) : n.resume.get? r = some e := by
  cases hstep with
  | operate _ _ => exact he
  | merge _ _ _ => exact he
  | refresh => exact he
  | finish r' =>
    rcases finishResume_cases r' n with heq | heq | ⟨c, n₁, hn₁, -, -, heq⟩ <;> rw [heq] at he
    · exact he
    · exact he
    · by_cases hr : r = r'
      · subst hr
        rw [SortedMap.get?_erase_self] at he
        cases he
      · rw [SortedMap.get?_erase_of_ne hr] at he
        rcases hn₁ with rfl | rfl <;> exact he
  | other _ hresume => exact hresume ▸ he

/-- A target stands until the replica is above it. -/
lemma awaits_or_step (hsane : n.Sane)
    (hreads : ∀ (t : CrdtType) (x : t.Timestamp), Wire.decode ts = .ok x → Reads t x)
    (hg : n.Awaits r ts ∨ n.Holds r (Above Reads)) (hstep : Step n n') :
    n'.Awaits r ts ∨ n'.Holds r (Above Reads) := by
  rcases hg with ⟨e, he, rfl⟩ | hholds
  · cases hstep with
    | operate _ _ => exact .inl ⟨e, he, rfl⟩
    | merge _ _ _ => exact .inl ⟨e, he, rfl⟩
    | refresh => exact .inl ⟨e, he, rfl⟩
    | finish r' =>
      rcases finishResume_cases r' n with heq | heq | ⟨c, n₁, hn₁, hc, hcov, heq⟩ <;> rw [heq]
      · exact .inl ⟨e, he, rfl⟩
      · exact .inl ⟨e, he, rfl⟩
      · obtain ⟨hsane₁, hresume⟩ : n₁.Sane ∧ n₁.resume = n.resume := by
          rcases hn₁ with rfl | rfl
          · exact ⟨hsane, rfl⟩
          · exact ⟨hsane.refresh, rfl⟩
        by_cases hr : r = r'
        · subst hr
          rw [he, Option.some.injEq] at hc
          subst hc
          exact .inr ((hcov.above hsane₁ hreads).of_hosted fun _ => id)
        · refine .inl ⟨e, ?_, rfl⟩
          rw [← hresume] at he
          exact (SortedMap.get?_erase_of_ne hr).trans he
    | other _ hresume => exact .inl ⟨e, hresume ▸ he, rfl⟩
  · exact .inr (hholds.step stable_above hstep)

end

/-! ### Many steps -/

lemma Sane.steps (hsane : n.Sane) (hsteps : ReflTransGen Step n n') : n'.Sane := by
  induction hsteps with
  | refl => exact hsane
  | tail _ hstep ih => exact ih.step hstep

lemma resume_steps (hsteps : ReflTransGen Step n n') {e : ReplicaCheckpoint}
    (he : n'.resume.get? r = some e) : n.resume.get? r = some e := by
  induction hsteps with
  | refl => exact he
  | tail _ hstep ih => exact ih (resume_step hstep he)

lemma awaits_or_steps {Reads : (t : CrdtType) → t.Timestamp → Prop} (hsane : n.Sane)
    (hreads : ∀ (t : CrdtType) (x : t.Timestamp), Wire.decode ts = .ok x → Reads t x)
    (hg : n.Awaits r ts ∨ n.Holds r (Above Reads)) (hsteps : ReflTransGen Step n n') :
    n'.Awaits r ts ∨ n'.Holds r (Above Reads) := by
  induction hsteps with
  | refl => exact hg
  | tail hsteps hstep ih => exact awaits_or_step (hsane.steps hsteps) hreads ih hstep

/-! ### What a checkpoint holds -/

/-- Nothing has changed but what comes of refreshing the topology. -/
structure Refreshed (n n' : Node) : Prop where
  info : n'.info = n.info
  resume : n'.resume = n.resume
  hosted : ∀ id h, n.hosted.get? id = some h → n'.hosted.get? id = some h
  steps : ReflTransGen Step n n'

namespace Refreshed

lemma refl (n : Node) : Refreshed n n := ⟨rfl, rfl, fun _ _ => id, .refl⟩

lemma refresh (n : Node) : Refreshed n n.refreshTopology.1 :=
  ⟨rfl, rfl, fun _ _ hh => get?_hostDescribed hh, .single .refresh⟩

lemma trans {n'' : Node} (h : Refreshed n n') (h' : Refreshed n' n'') : Refreshed n n'' :=
  ⟨h'.info.trans h.info, h'.resume.trans h.resume, fun id x hx => h'.hosted id x (h.hosted id x hx),
    h.steps.trans h'.steps⟩

end Refreshed

def Reached (n : Node) (e : ReplicaCheckpoint) : Prop :=
  n.Holds e.replica fun _ s => e.localTimestamp = Encoded.timestampOf s

lemma exec_timestampOf (r : ReplicaId) (n : Node) :
    Refreshed n (exec (timestampOf r) n).2 ∧
      ∀ ts peers, (exec (timestampOf r) n).1 = .ok ts →
        (exec (timestampOf r) n).2.Reached ⟨r, ts, peers⟩ := by
  obtain ⟨hsame, hhosted⟩ := exec_hostedInstance r.instanceId n
  have hrefreshed : Refreshed n (exec (hostedInstance r.instanceId) n).2 := by
    rcases hsame with heq | heq <;> rw [heq]
    · exact .refl n
    · exact .refresh n
  rw [timestampOf, exec_bind]
  cases hexec : exec (hostedInstance r.instanceId) n with
  | mk result n₁ =>
    rw [hexec] at hrefreshed hhosted
    cases result with
    | error e => exact ⟨hrefreshed, nofun⟩
    | ok h =>
      simp only [exec_liftExcept]
      refine ⟨hrefreshed, fun ts peers hts => ?_⟩
      rw [Hosted.timestampOf] at hts
      cases hs : h.shard r.shard with
      | error e =>
        rw [hs] at hts
        cases hts
      | ok s =>
        rw [hs] at hts
        exact ⟨h, s, hhosted h rfl, hs, (Except.ok.inj hts).symm⟩

def reachedEntry (peersOf : ReplicaId → SortedMap NodeId Payload) (replica : ReplicaId) :
    StateM Node (Option ReplicaCheckpoint) := do
  match ← (timestampOf replica).run with
  | .ok ts => return some ⟨replica, ts, peersOf replica⟩
  | .error _ => return none

variable (peersOf : ReplicaId → SortedMap NodeId Payload)

lemma run_reachedEntry (r : ReplicaId) (n : Node) :
    Refreshed n ((reachedEntry peersOf r).run n).2 ∧
      ∀ e, ((reachedEntry peersOf r).run n).1 = some e →
        e.replica = r ∧ ((reachedEntry peersOf r).run n).2.Reached e := by
  obtain ⟨hrefreshed, hreached⟩ := exec_timestampOf r n
  simp only [reachedEntry, StateT.run_bind]
  rw [exec] at hrefreshed hreached
  generalize (timestampOf r).run.run n = p at hrefreshed hreached
  cases p with
  | mk result n₁ =>
    cases result with
    | error _ => exact ⟨hrefreshed, fun _ he => by cases he⟩
    | ok ts =>
      refine ⟨hrefreshed, fun e he => ?_⟩
      cases he
      exact ⟨rfl, hreached ts _ rfl⟩

lemma run_filterMapM_reachedEntry (l : List ReplicaId) (n : Node) :
    let p := (l.filterMapM (reachedEntry peersOf)).run n
    Refreshed n p.2 ∧ (p.1.map ReplicaCheckpoint.replica).Sublist l ∧ ∀ e ∈ p.1, p.2.Reached e := by
  induction l generalizing n with
  | nil => exact ⟨.refl n, .slnil, nofun⟩
  | cons r l ih =>
    obtain ⟨hfirst, hreached⟩ := run_reachedEntry peersOf r n
    rw [List.filterMapM_cons]
    simp only [StateT.run_bind]
    generalize (reachedEntry peersOf r).run n = p at hfirst hreached
    obtain ⟨entry, n₁⟩ := p
    obtain ⟨hrest, hsub, hall⟩ := ih n₁
    cases entry with
    | none => exact ⟨hfirst.trans hrest, hsub.cons r, hall⟩
    | some e =>
      obtain ⟨hr, he⟩ := hreached e rfl
      refine ⟨hfirst.trans hrest, ?_, fun e' he' => ?_⟩
      · exact hr ▸ hsub.cons_cons e.replica
      · rcases List.mem_cons.mp he' with rfl | he'
        · exact he.of_hosted fun _ => hrest.hosted _ _
        · exact hall e' he'

variable {peersOf}

/-- The entries of the replicas that a node awaits are named for their keys. -/
def ResumeNamed (n : Node) : Prop := ∀ r e, n.resume.get? r = some e → e.replica = r

/-- What a checkpoint of a node holds: every replica once, of those that the node awaits the
targets, and of others that it hosts what they have reached. -/
structure Records (n : Node) (c : Checkpoint) (n' : Node) : Prop where
  node : c.node = some n.info.id
  nodup : (c.replicas.map ReplicaCheckpoint.replica).Nodup
  entries : ∀ e ∈ c.replicas, n.Awaits e.replica e.localTimestamp ∨
    n.resume.get? e.replica = none ∧ n'.Reached e
  targets : ∀ r ts, n.Awaits r ts → ∃ e ∈ c.replicas, e.replica = r ∧ e.localTimestamp = ts

lemma map_replica_values (hnamed : n.ResumeNamed) :
    (n.resume.values.map fun c => { c with peers := peersOf c.replica }).map
      ReplicaCheckpoint.replica = n.resume.keys := by
  rw [SortedMap.values, SortedMap.keys, List.map_map, List.map_map]
  exact List.map_congr_left fun p hp => hnamed p.1 p.2 (SortedMap.mem_entries_iff.mp hp)

lemma run_checkpoint (time : Nat) (hnamed : n.ResumeNamed) :
    Refreshed n ((checkpoint time).run n).2 ∧
      Records n ((checkpoint time).run n).1 ((checkpoint time).run n).2 := by
  set peersOf := fun replica => n.progress.getD replica SortedMap.empty
  set held := (n.distributor.heldBy n.info.id).filter fun r => !n.resume.contains r
  set resuming := n.resume.values.map fun c => { c with peers := peersOf c.replica }
  have hrun : (checkpoint time).run n =
      (⟨some n.info.id, time, ((held.filterMapM (reachedEntry peersOf)).run n).1 ++ resuming⟩,
        ((held.filterMapM (reachedEntry peersOf)).run n).2) := rfl
  have hheld (r : ReplicaId) (hr : r ∈ held) : n.resume.get? r = none := by
    have := (List.mem_filter.mp hr).2
    simpa [SortedMap.contains] using this
  have hnames : resuming.map ReplicaCheckpoint.replica = n.resume.keys := map_replica_values hnamed
  have htarget (r : ReplicaId) (e : ReplicaCheckpoint) (he : n.resume.get? r = some e) :
      { e with peers := peersOf e.replica } ∈ resuming :=
    List.mem_map_of_mem (SortedMap.mem_values.mpr ⟨r, he⟩)
  obtain ⟨hrefreshed, hsub, hreached⟩ := run_filterMapM_reachedEntry peersOf held n
  rw [hrun]
  refine ⟨hrefreshed, rfl, ?_, fun e he => ?_, ?_⟩
  · rw [List.map_append, hnames]
    refine (((SortedMap.nodup_keys _).filter _).filter _ |>.sublist hsub).append
      n.resume.nodup_keys fun r hr hr' => ?_
    have hnone := hheld r (hsub.subset hr)
    rw [SortedMap.mem_keys, hnone] at hr'
    cases hr'
  · rcases List.mem_append.mp he with he | he
    · exact .inr ⟨hheld _ (hsub.subset (List.mem_map_of_mem he)), hreached e he⟩
    · obtain ⟨e₀, he₀, rfl⟩ := List.mem_map.mp he
      obtain ⟨r, hr⟩ := SortedMap.mem_values.mp he₀
      exact .inl ⟨e₀, (hnamed r e₀ hr).symm ▸ hr, rfl⟩
  · rintro r ts ⟨e, he, rfl⟩
    exact ⟨_, List.mem_append_right _ (htarget r e he), hnamed r e he, rfl⟩

/-- A checkpoint that is taken up sets the targets that it names. -/
lemma get?_restore {c : Checkpoint} {e : ReplicaCheckpoint} (hnode : c.node = some n.info.id)
    (hempty : n.resume = .empty) (hnodup : (c.replicas.map ReplicaCheckpoint.replica).Nodup) :
    (n.restore c).resume.get? r = some e ↔ e ∈ c.replicas ∧ e.replica = r := by
  have hresume : (n.restore c).resume =
      .ofList (c.replicas.map fun e => (e.replica, e)) := by
    rw [restore, if_neg (by simp [hnode])]
    simp only [hempty, SortedMap.ofList, List.foldl_map]
  rw [hresume, SortedMap.get?_ofList, List.mem_map]
  · constructor
    · rintro ⟨e', he', heq⟩
      cases heq
      exact ⟨he', rfl⟩
    · rintro ⟨he, rfl⟩
      exact ⟨e, he, rfl⟩
  · rintro p hp q hq heq
    obtain ⟨e, he, rfl⟩ := List.mem_map.mp hp
    obtain ⟨e', he', rfl⟩ := List.mem_map.mp hq
    exact congrArg (fun e => (e.replica, e)) (List.inj_on_of_nodup_map hnodup he he' heq)

namespace Life

/-! ### Lives -/

variable {l l' : Life}

def entries (l : Life) : List ReplicaCheckpoint := l.last?.elim [] Checkpoint.replicas

structure Sound (l : Life) : Prop where
  named : l.node.Named
  sane : l.node.Sane
  owned : ∀ p ∈ l.saved, p.2.node = some l.node.info.id
  nodup : ∀ p ∈ l.saved, (p.2.replicas.map ReplicaCheckpoint.replica).Nodup
  /-- The targets are those that were saved last. -/
  targets : ∀ r e, l.node.resume.get? r = some e →
    e.replica = r ∧ ∃ e' ∈ l.entries, e'.replica = r ∧ e'.localTimestamp = e.localTimestamp
  /-- What was saved last is a target still, or the replica is above it. -/
  kept : ∀ e ∈ l.entries, l.node.Awaits e.replica e.localTimestamp ∨
    l.node.Holds e.replica (Above fun _ x => Denotes e.localTimestamp x)
  denoted : ∀ e ∈ l.entries, ∃ (t : CrdtType) (x : t.Timestamp),
    Denotes e.localTimestamp x ∧ Lattice.leq x x = true
  advancing : l.saved.IsChain fun later earlier => ∀ e ∈ earlier.2.replicas,
    ∀ e' ∈ later.2.replicas, e.replica = e'.replica →
      later.1.Advances e.replica e.localTimestamp e'.localTimestamp

lemma Sound.start (hhosted : n.hosted = .empty) (hresume : n.resume = .empty) :
    Sound ⟨n, []⟩ where
  named id h hh := by simp [hhosted] at hh
  sane id h hh := by simp [hhosted] at hh
  owned _ := nofun
  nodup _ := nofun
  targets r e he := by simp [hresume] at he
  kept _ := nofun
  denoted _ := nofun
  advancing := .nil

lemma Sound.steps (hl : l.Sound) (hsteps : ReflTransGen Step l.node n)
    (hid : n.info.id = l.node.info.id) : Sound ⟨n, l.saved⟩ where
  named := hl.named.steps hsteps
  sane := hl.sane.steps hsteps
  owned p hp := (hl.owned p hp).trans (congrArg some hid.symm)
  nodup := hl.nodup
  targets r e he := hl.targets r e (resume_steps hsteps he)
  kept e he := awaits_or_steps hl.sane (fun _ _ => .inr) (hl.kept e he) hsteps
  denoted := hl.denoted
  advancing := hl.advancing

lemma Moves.cases (hm : l.Moves l') (hl : l.Sound) :
    (∃ n : Node, ReflTransGen Step l.node n ∧ n.info.id = l.node.info.id ∧ l' = ⟨n, l.saved⟩) ∨
    (∃ time, l' = ⟨((checkpoint time).run l.node).2,
      (((checkpoint time).run l.node).2, ((checkpoint time).run l.node).1) :: l.saved⟩) ∨
    ∃ n : Node, n.info.id = l.node.info.id ∧ n.hosted = .empty ∧ n.resume = .empty ∧
      l' = ⟨l.takeUp n, l.saved⟩ := by
  cases hm with
  | act hn hactivity hn' =>
    obtain ⟨n', hget, hbecomes⟩ := hactivity.evolves.nodes _ _ hn
    rw [hn', Option.some.injEq] at hget
    subst hget
    exact .inl ⟨_, hbecomes.steps hl.named, congrArg NodeInfo.id hbecomes.info, rfl⟩
  | refresh => exact .inl ⟨_, .single .refresh, rfl, rfl⟩
  | other hhosted hresume hid => exact .inl ⟨_, .single (.other hhosted hresume), hid, rfl⟩
  | save time => exact .inr (.inl ⟨time, rfl⟩)
  | restart hid hhosted hresume => exact .inr (.inr ⟨_, hid, hhosted, hresume, rfl⟩)

lemma Sound.save (hl : l.Sound) (time : Nat) :
    Sound ⟨((checkpoint time).run l.node).2,
      (((checkpoint time).run l.node).2, ((checkpoint time).run l.node).1) :: l.saved⟩ := by
  obtain ⟨hrefreshed, hrecords⟩ := run_checkpoint time fun r e he => (hl.targets r e he).1
  generalize ((checkpoint time).run l.node).1 = c at hrecords
  generalize ((checkpoint time).run l.node).2 = n at hrefreshed hrecords
  have hsame : Sound ⟨n, l.saved⟩ :=
    hl.steps hrefreshed.steps (congrArg NodeInfo.id hrefreshed.info)
  have howner : c.node = some n.info.id := by rw [hrecords.node, hrefreshed.info]
  have hawaits (r : ReplicaId) (ts : Payload) : n.Awaits r ts ↔ l.node.Awaits r ts := by
    rw [Awaits, hrefreshed.resume, Awaits]
  refine ⟨hsame.named, hsame.sane, ?_, ?_, fun r e he => ?_, fun e he => ?_, fun e he => ?_, ?_⟩
  · exact List.forall_mem_cons.mpr ⟨howner, hsame.owned⟩
  · exact List.forall_mem_cons.mpr ⟨hrecords.nodup, hsame.nodup⟩
  · refine ⟨(hsame.targets r e he).1, ?_⟩
    exact hrecords.targets r _ ((hawaits r _).mp ⟨e, he, rfl⟩)
  · rcases hrecords.entries e he with htarget | ⟨-, h, s, hh, hs, hts⟩
    · exact .inl ((hawaits _ _).mpr htarget)
    · have hcanonical := hsame.sane _ h hh s (mem_of_shard hs)
      exact .inr ⟨h, s, hh, hs, hcanonical, timestamp s, .inl hts,
        Lattice.leq_iff.mpr (CanonicalForm.join_self hcanonical)⟩
  · rcases hrecords.entries e he with ⟨e₀, he₀, hlocal⟩ | ⟨-, h, s, hh, hs, hts⟩
    · obtain ⟨-, e', he', -, hlocal'⟩ := hl.targets _ e₀ he₀
      obtain ⟨t, x, hx⟩ := hl.denoted e' he'
      exact ⟨t, x, hlocal ▸ hlocal' ▸ hx⟩
    · have hcanonical := hsame.sane _ h hh s (mem_of_shard hs)
      exact ⟨h.type, timestamp s, .inl hts,
        Lattice.leq_iff.mpr (CanonicalForm.join_self hcanonical)⟩
  · refine List.isChain_cons.mpr ⟨fun p hp e he e' he' hsamereplica => ?_, hsame.advancing⟩
    have hentries : l.entries = p.2.replicas := by
      rw [entries, last?, hp, Option.map_some, Option.elim_some]
    rcases hrecords.entries e' he' with ⟨e₀, he₀, hlocal⟩ | ⟨hgone, h, s, hh, hs, hts⟩
    · -- the target is that of the entry saved before
      obtain ⟨-, e₁, he₁, hname, hlocal₁⟩ := hl.targets _ e₀ he₀
      rw [hentries] at he₁
      have hp' : p ∈ l.saved := List.mem_of_mem_head? hp
      have heq : e₁ = e := List.inj_on_of_nodup_map (hl.nodup p hp') he₁ he
        (hname.trans hsamereplica.symm)
      subst heq
      obtain ⟨t, x, hx, hself⟩ := hl.denoted e₁ (hentries ▸ he)
      rw [← hlocal, ← hlocal₁]
      exact .same hx hself
    · rcases hsame.kept e (hentries ▸ he) with ⟨e₀, he₀, -⟩ | ⟨h', s', hh', hs', -, x, hx, hle⟩
      · rw [hrefreshed.resume, hsamereplica, hgone] at he₀
        cases he₀
      · rw [← hsamereplica, hh', Option.some.injEq] at hh
        subst hh
        rw [← hsamereplica, hs'] at hs
        cases hs
        rw [hts]
        exact .reached hh' hs' hx hle

lemma hosted_restore (n : Node) (c : Checkpoint) : (n.restore c).hosted = n.hosted := by
  unfold restore
  split <;> rfl

lemma info_restore (n : Node) (c : Checkpoint) : (n.restore c).info = n.info := by
  unfold restore
  split <;> rfl

lemma Sound.get?_takeUp (hl : l.Sound) (hid : n.info.id = l.node.info.id)
    (hresume : n.resume = .empty) {e : ReplicaCheckpoint} :
    (l.takeUp n).resume.get? r = some e ↔ e ∈ l.entries ∧ e.replica = r := by
  cases hlast : l.last? with
  | none => simp [takeUp, entries, hlast, hresume]
  | some c =>
    obtain ⟨p, hp, rfl⟩ := Option.map_eq_some_iff.mp hlast
    have hp' : p ∈ l.saved := List.mem_of_mem_head? hp
    have howner : p.2.node = some n.info.id := (hl.owned p hp').trans (congrArg some hid.symm)
    simp only [takeUp, entries, hlast, Option.elim_some]
    exact get?_restore howner hresume (hl.nodup p hp')

lemma Sound.restart (hl : l.Sound) (hid : n.info.id = l.node.info.id) (hhosted : n.hosted = .empty)
    (hresume : n.resume = .empty) : Sound ⟨l.takeUp n, l.saved⟩ := by
  obtain ⟨hempty, hinfo⟩ : (l.takeUp n).hosted = .empty ∧ (l.takeUp n).info = n.info := by
    rw [takeUp]
    cases l.last? with
    | none => exact ⟨hhosted, rfl⟩
    | some c => exact ⟨(hosted_restore n c).trans hhosted, info_restore n c⟩
  refine ⟨fun id h hh => ?_, fun id h hh => ?_, ?_, hl.nodup, fun r e he => ?_, fun e he => ?_,
    hl.denoted, hl.advancing⟩
  · simp [hempty] at hh
  · simp [hempty] at hh
  · simpa [hinfo, hid] using hl.owned
  · obtain ⟨hmem, hname⟩ := (hl.get?_takeUp hid hresume).mp he
    exact ⟨hname, e, hmem, hname, rfl⟩
  · exact .inl ⟨e, (hl.get?_takeUp hid hresume).mpr ⟨he, rfl⟩, rfl⟩

lemma Sound.moves (hl : l.Sound) (hm : l.Moves l') : l'.Sound := by
  rcases hm.cases hl with
    ⟨n, hsteps, hid, rfl⟩ | ⟨time, rfl⟩ | ⟨n, hid, hhosted, hresume, rfl⟩
  · exact hl.steps hsteps hid
  · exact hl.save time
  · exact hl.restart hid hhosted hresume

lemma Lived.sound (hl : l.Lived) : l.Sound := by
  obtain ⟨n, hhosted, hresume, hmoves⟩ := hl
  induction hmoves with
  | refl => exact .start hhosted hresume
  | tail _ hm ih => exact ih.moves hm

/-- **What a node saves of its replicas never falls back, in any life.** Every checkpoint names a
replica at most once. Of a replica that two successive ones name, the later says no less than the
earlier. And a replica comes off those that the node awaits only when its timestamp is above the one
that was saved of it last. -/
theorem checkpoints_never_fall_back (hl : l.Lived) :
    (∀ p ∈ l.saved, (p.2.replicas.map ReplicaCheckpoint.replica).Nodup) ∧
    (l.saved.IsChain fun later earlier => ∀ e ∈ earlier.2.replicas, ∀ e' ∈ later.2.replicas,
      e.replica = e'.replica →
        later.1.Advances e.replica e.localTimestamp e'.localTimestamp) ∧
    ∀ l' r, l.Moves l' → r ∈ l.node.pendingResume → r ∉ l'.node.pendingResume →
      ∃ e ∈ l.entries, e.replica = r ∧ l'.node.Covered r e.localTimestamp := by
  have hsound := hl.sound
  refine ⟨hsound.nodup, hsound.advancing, fun l' r hm hpending hgone => ?_⟩
  obtain ⟨e, he⟩ := Option.isSome_iff_exists.mp (SortedMap.mem_keys.mp hpending)
  obtain ⟨-, e', he', hname, hlocal⟩ := hsound.targets r e he
  refine ⟨e', he', hname, hlocal ▸ ?_⟩
  have hcovered (hsteps : ReflTransGen Step l.node l'.node) :
      l'.node.Covered r e.localTimestamp := by
    rcases awaits_or_steps hsound.sane (fun _ _ => id) (.inl ⟨e, he, rfl⟩) hsteps with
      ⟨e₁, he₁, -⟩ | ⟨h, s, hh, hs, -, hcovers⟩
    · exact absurd (SortedMap.mem_keys.mpr (he₁ ▸ rfl)) hgone
    · exact ⟨h, s, hh, hs, hcovers⟩
  rcases hm.cases hsound with ⟨n, hsteps, -, rfl⟩ | ⟨time, rfl⟩ | ⟨n, hid, -, hresume, rfl⟩
  · exact hcovered hsteps
  · exact hcovered (run_checkpoint time fun r e he => (hsound.targets r e he).1).1.steps
  · -- what is awaited before a restart is awaited after it
    have he₁ := (hsound.get?_takeUp hid hresume).mpr ⟨he', hname⟩
    exact absurd (SortedMap.mem_keys.mpr (he₁ ▸ rfl)) hgone

/-! ### A node that restarts before it has caught up -/

/-- A node that knows of a set and does not host it yet. -/
def beginner : Node :=
  let n := create ⟨"c", "mem://c"⟩ {} [.orSet .string] Selection.verbatim Selection.verbatim
    Selection.verbatim
  let created : LwwDelta InstanceId InstanceDescriptor :=
    .set "t" ⟨"t", "orset<string>", 1, 1⟩ ⟨0, "c"⟩
  { n with metadata := { n.metadata with instances := (mergeAll LwwRegistry.empty [created]).1 } }

def itemOfPeer : OrSet String := (mergeAll OrSet.empty [.add ⟨"d", 1⟩ "x"]).1

def holder (s : OrSet String) : Node :=
  { beginner.refreshTopology.1 with
    hosted := SortedMap.empty.insert "t" ⟨"t", .orSet .string, 1, [s]⟩
    distributor := { beginner.distributor with
      plan := SortedMap.empty.insert ⟨"t", 0⟩ ⟨[⟨"c", "mem://c"⟩], [⟨"c", "mem://c"⟩]⟩ } }

def firstSave : Node × Checkpoint :=
  (((checkpoint 1).run (holder itemOfPeer)).2, ((checkpoint 1).run (holder itemOfPeer)).1)

/-- The node restarts and saves again, before it hosts the set. -/
def interrupted : Life :=
  let n := beginner.restore firstSave.2
  ⟨((checkpoint 2).run n).2, [(((checkpoint 2).run n).2, ((checkpoint 2).run n).1), firstSave]⟩

def pushOfPeer : Push :=
  ⟨.replica ⟨"t", 0⟩, Wire.encode [OrSetDelta.add ⟨"d", 1⟩ "x"], .forSync "" false⟩

lemma hosted_holder : (holder .empty).hosted = beginner.refreshTopology.1.hosted := rfl

lemma exec_pushOfPeer : exec (Node.merge pushOfPeer.subject pushOfPeer.deltas) (holder .empty) =
    (.ok (mergeAll OrSet.empty [OrSetDelta.add ⟨"d", 1⟩ "x"]).2, holder itemOfPeer) := by
  have hdecode : (Wire.decode pushOfPeer.deltas : Except ClusterError (List (OrSetDelta String))) =
      .ok [.add ⟨"d", 1⟩ "x"] := by
    refine LawfulWire.decode_encode (fun δ hδ => ?_) (by decide)
    rw [List.mem_singleton.mp hδ]
    exact ⟨(by decide : 1 < word64), trivial⟩
  exact exec_merge_hosted (h := ⟨"t", .orSet .string, 1, [OrSet.empty]⟩) rfl rfl hdecode

lemma lived_interrupted : interrupted.Lived := by
  refine ⟨beginner, rfl, rfl, ?_⟩
  have hhosts : ReflTransGen Moves ⟨beginner, []⟩ ⟨holder .empty, []⟩ :=
    .tail (.single .refresh) (.other hosted_holder rfl rfl)
  let c : Cluster := { Cluster.empty 0 with nodes := SortedMap.empty.insert 0 (holder .empty) }
  have hpush : Moves ⟨holder .empty, []⟩ ⟨holder itemOfPeer, []⟩ := by
    have hn : c.nodes.get? 0 = some (holder .empty) := SortedMap.get?_insert_self
    refine .act hn (.push 0 pushOfPeer) ?_
    rw [Cluster.handlePush, Cluster.receive, exec_bind, Cluster.exec_act hn, exec_pushOfPeer]
    exact SortedMap.get?_insert_self
  have hsave : Moves ⟨holder itemOfPeer, []⟩ ⟨firstSave.1, [firstSave]⟩ := .save 1
  have hrestart : Moves ⟨firstSave.1, [firstSave]⟩ ⟨beginner.restore firstSave.2, [firstSave]⟩ :=
    Moves.restart (l := ⟨firstSave.1, [firstSave]⟩) (n := beginner) rfl rfl rfl
  have hsave' : Moves ⟨beginner.restore firstSave.2, [firstSave]⟩ interrupted := .save 2
  exact (((hhosts.tail hpush).tail hsave).tail hrestart).tail hsave'

/-- What was saved before the restart is saved again after it, and is still to be reached. -/
theorem target_saved_again :
    interrupted.Lived ∧ interrupted.node.pendingResume = [⟨"t", 0⟩] ∧
    interrupted.saved.map (fun p => p.2.replicas.map ReplicaCheckpoint.replica) =
      [[⟨"t", 0⟩], [⟨"t", 0⟩]] ∧
    (∀ p ∈ interrupted.saved, (p.2.replicas.map ReplicaCheckpoint.replica).Nodup) ∧
    (interrupted.saved.IsChain fun later earlier => ∀ e ∈ earlier.2.replicas,
      ∀ e' ∈ later.2.replicas, e.replica = e'.replica →
        later.1.Advances e.replica e.localTimestamp e'.localTimestamp) ∧
    ∀ l' r, interrupted.Moves l' → r ∈ interrupted.node.pendingResume →
      r ∉ l'.node.pendingResume →
        ∃ e ∈ interrupted.entries, e.replica = r ∧ l'.node.Covered r e.localTimestamp :=
  ⟨lived_interrupted, by decide +kernel, by decide +kernel,
    checkpoints_never_fall_back lived_interrupted⟩

end Life

end Node

end DeltaRing
