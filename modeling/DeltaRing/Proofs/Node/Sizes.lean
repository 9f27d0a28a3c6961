import DeltaRing.Proofs.Node.Fleet
import DeltaRing.Proofs.Placement.Keeping
import DeltaRing.Proofs.Replication.Registry

/-!
Sizes on record.

A node puts a size on record beyond the stamp of the one that it replaces, so that it takes effect
whatever the clock shows and whoever wrote before. When the node has recorded what it reports, just
that is on record, and the plan takes it for a holder of every replica of which it reports anything
but an empty copy.
-/

namespace DeltaRing

lemma SortedMap.mem_getD_foldl_insert {ι K α : Type} [Key K] [Key α] (key : ι → K) (member : ι → α)
    (l : List ι) (m : SortedMap K (SortedSet α)) (k : K) (a : α) :
    a ∈ (l.foldl (fun m x => m.alter (key x) fun s => (s.getD .empty).insert (member x)) m).getD k
        .empty ↔ a ∈ m.getD k .empty ∨ ∃ x ∈ l, key x = k ∧ member x = a := by
  induction l generalizing m with
  | nil => simp
  | cons x l ih =>
    rw [List.foldl_cons, ih]
    have hone : a ∈ (m.alter (key x) fun s => (s.getD .empty).insert (member x)).getD k .empty ↔
        a ∈ m.getD k .empty ∨ key x = k ∧ member x = a := by
      by_cases hk : key x = k
      · subst hk
        simp [SortedMap.getD, or_comm, eq_comm]
      · simp [SortedMap.getD, SortedMap.get?_alter_of_ne (Ne.symm hk), hk]
    rw [hone, or_assoc]
    simp

/-! ### One write -/

lemma LwwStamp.isBelow_of_time_lt {a b : LwwStamp} (h : a.time < b.time) : a.isBelow b = true := by
  rw [isBelow_iff]
  change (compare a.time b.time).then (compare a.actor b.actor) = .lt
  rw [compare_lt_iff_lt.mpr h]
  rfl

namespace Metadata

variable {m m' : Metadata} {clock : Int} {id : NodeId} {r : ReplicaId}

/-- What is written next comes after what it replaces. -/
lemma lt_nextTime (now t : Nat) : t < nextTime now (some t) := by
  simp only [nextTime]
  split
  · exact Nat.lt_succ_self t
  · omega

section

variable {K V : Type} [Key K] [DecidableEq V] {actor : Actor} {r r' : LwwRegistry K V} {key : K}
  {value : V} {δ? : Option (LwwDelta K V)}

lemma exists_replaceEntry {now : Nat} (hclock : readClock clock = .ok now) (actor : Actor)
    (r : LwwRegistry K V) (key : K) (value : V) :
    ∃ p, replaceEntry actor clock r key value = .ok p := by
  rw [replaceEntry]
  split
  · exact ⟨_, rfl⟩
  · rw [hclock]
    exact ⟨_, rfl⟩

def nextStamp (actor : Actor) (now : Nat) (r : LwwRegistry K V) (key : K) : LwwStamp :=
  ⟨nextTime now ((r.stamp? key).map LwwStamp.time), actor⟩

omit [DecidableEq V] in
lemma time_lt_nextStamp (actor : Actor) (now : Nat) {e : LwwEntry V}
    (he : r.entries.get? key = some e) : e.stamp.time < (nextStamp actor now r key).time := by
  rw [nextStamp, LwwRegistry.stamp?, he]
  exact lt_nextTime now _

lemma replaceEntry_cases (h : replaceEntry actor clock r key value = .ok (r', δ?)) :
    r.get? key = some value ∧ r' = r ∧ δ? = none ∨
      ∃ now, readClock clock = .ok now ∧
        r' = ⟨r.entries.insert key ⟨some value, nextStamp actor now r key⟩⟩ ∧
        δ? = some (.set key value (nextStamp actor now r key)) := by
  rw [replaceEntry] at h
  split at h
  · rename_i hsame
    cases h
    exact .inl ⟨hsame, rfl, rfl⟩
  · cases hclock : readClock clock with
    | error e =>
      rw [hclock] at h
      cases h
    | ok now =>
      rw [hclock] at h
      have hfree : r.blocking key (nextStamp actor now r key) = none := by
        rw [LwwRegistry.blocking, Option.filter_eq_none_iff]
        intro e he
        simp [LwwStamp.isBelow_of_time_lt (time_lt_nextStamp actor now he)]
      have hwrite : r.write (.set key value (nextStamp actor now r key)) =
          (⟨r.entries.insert key ⟨some value, nextStamp actor now r key⟩⟩,
            .ok (.set key value (nextStamp actor now r key))) := by
        rw [LwwRegistry.write, LwwDelta.key, LwwDelta.stamp, hfree]
        rfl
      have hp : (.ok ((r.write (.set key value (nextStamp actor now r key))).1,
          (r.write (.set key value (nextStamp actor now r key))).2.toOption) :
            Except ClusterError _) = .ok (r', δ?) := h
      rw [hwrite] at hp
      cases hp
      exact .inr ⟨now, rfl, rfl, rfl⟩

/-- A value that is replaced stands there afterwards, nothing else is touched, and where no delta is
handed out nothing has changed. -/
lemma replaceEntry_eq (h : replaceEntry actor clock r key value = .ok (r', δ?)) :
    r'.get? key = some value ∧ (∀ k ≠ key, r'.get? k = r.get? k) ∧ (δ? = none → r' = r) := by
  rcases replaceEntry_cases h with ⟨hsame, rfl, rfl⟩ | ⟨now, -, rfl, rfl⟩
  · exact ⟨hsame, fun _ _ => rfl, fun _ => rfl⟩
  · refine ⟨?_, fun k hk => ?_, fun hnone => absurd hnone (Option.some_ne_none _)⟩
    · rw [LwwRegistry.get?, SortedMap.get?_insert_self]
      rfl
    · rw [LwwRegistry.get?, SortedMap.get?_insert_of_ne hk]
      rfl

end

/-! ### All reports -/

def Unequivocal (reports : List (ReplicaHolding × Nat)) : Prop :=
  ∀ e ∈ reports, ∀ e' ∈ reports, e.1 = e'.1 → e.2 = e'.2

/-- The sizes on record and the deltas of the writes so far, when one more size is recorded. -/
def recordOne (actor : Actor) (clock : Int)
    (p : LwwRegistry ReplicaHolding Nat × List (LwwDelta ReplicaHolding Nat))
    (e : ReplicaHolding × Nat) :
    Except ClusterError (LwwRegistry ReplicaHolding Nat × List (LwwDelta ReplicaHolding Nat)) :=
  (replaceEntry actor clock p.1 e.1 e.2).map fun q => (q.1, p.2 ++ q.2.toList)

lemma recordSizes_eq (m : Metadata) (clock : Int) (reports : List (ReplicaHolding × Nat)) :
    m.recordSizes clock reports =
      (reports.foldlM (recordOne m.actor clock) (m.sizes, [])).map fun p =>
        ({ m with sizes := p.1 }, if p.2.isEmpty then none else some p.2) := by
  have hfold {f} (hf : ∀ p e, f p e = recordOne m.actor clock p e) :
      reports.foldlM f (m.sizes, []) = reports.foldlM (recordOne m.actor clock) (m.sizes, []) :=
    congrArg (fun f => reports.foldlM f (m.sizes, [])) (funext fun p => funext (hf p))
  rw [recordSizes, hfold]
  · cases reports.foldlM (recordOne m.actor clock) (m.sizes, []) <;> rfl
  · intro p e
    rw [recordOne]
    change (replaceEntry m.actor clock p.1 e.1 e.2 >>= _) = _
    cases replaceEntry m.actor clock p.1 e.1 e.2 <;> rfl

variable {l : List (ReplicaHolding × Nat)} {actor : Actor}
  {s s' : LwwRegistry ReplicaHolding Nat} {δs δs' : List (LwwDelta ReplicaHolding Nat)}

/-- After a pass every report is on record, no other entry is touched, and a pass that hands out
nothing has changed nothing. -/
lemma foldlM_recordOne (hone : Unequivocal l)
    (h : l.foldlM (recordOne actor clock) (s, δs) = .ok (s', δs')) :
    (∀ e ∈ l, s'.get? e.1 = some e.2) ∧ (∀ k, (∀ e ∈ l, e.1 ≠ k) → s'.get? k = s.get? k) ∧
      ∃ new, δs' = δs ++ new ∧ (new = [] → s' = s) := by
  induction l generalizing s δs with
  | nil =>
    cases h
    exact ⟨nofun, fun _ _ => rfl, [], (List.append_nil _).symm, fun _ => rfl⟩
  | cons e l ih =>
    rw [List.foldlM_cons] at h
    cases hstep : recordOne actor clock (s, δs) e with
    | error err =>
      rw [hstep] at h
      cases h
    | ok p =>
      rw [hstep] at h
      obtain ⟨q, hq, rfl⟩ : ∃ q, replaceEntry actor clock s e.1 e.2 = .ok q ∧
          (q.1, δs ++ q.2.toList) = p := by
        rw [recordOne] at hstep
        cases hq : replaceEntry actor clock s e.1 e.2 with
        | error err =>
          rw [hq] at hstep
          cases hstep
        | ok q =>
          rw [hq] at hstep
          exact ⟨q, rfl, Except.ok.inj hstep⟩
      obtain ⟨hself, hothers, hquiet⟩ := replaceEntry_eq hq
      obtain ⟨hl, hrest, new, rfl, hnew⟩ :=
        ih (fun e₁ h₁ e₂ h₂ => hone e₁ (.tail _ h₁) e₂ (.tail _ h₂)) h
      refine ⟨List.forall_mem_cons.mpr ⟨?_, hl⟩, fun k hk => ?_, q.2.toList ++ new,
        List.append_assoc _ _ _, fun hnone => ?_⟩
      · -- the holding may be reported once more
        by_cases hagain : ∃ e' ∈ l, e'.1 = e.1
        · obtain ⟨e', he', hsame⟩ := hagain
          rw [← hsame, hl e' he', hone e' (.tail _ he') e List.mem_cons_self hsame]
        · rw [hrest e.1 fun e' he' hsame => hagain ⟨e', he', hsame⟩, hself]
      · obtain ⟨hke, hkl⟩ := List.forall_mem_cons.mp hk
        rw [hrest k hkl, hothers k (Ne.symm hke)]
      · obtain ⟨hq₂, hnew₂⟩ := List.append_eq_nil_iff.mp hnone
        rw [hnew hnew₂, hquiet (Option.toList_eq_nil_iff.mp hq₂)]

/-- **What is recorded is on record.** A pass over reports that do not contradict each other leaves
just these sizes under their holdings, and touches nothing else of the metadata. Where it hands out
nothing, it has changed nothing. -/
theorem recordSizes_spec {reports : List (ReplicaHolding × Nat)} {m' : Metadata}
    {δs? : Option (List (LwwDelta ReplicaHolding Nat))} (hone : Unequivocal reports)
    (h : m.recordSizes clock reports = .ok (m', δs?)) :
    (∀ e ∈ reports, m'.sizes.get? e.1 = some e.2) ∧ m' = { m with sizes := m'.sizes } ∧
      (δs? = none → m' = m) := by
  rw [recordSizes_eq] at h
  cases hfold : reports.foldlM (recordOne m.actor clock) (m.sizes, []) with
  | error e =>
    rw [hfold] at h
    cases h
  | ok p =>
    rw [hfold] at h
    cases h
    obtain ⟨hrecorded, -, new, hnew, hquiet⟩ := foldlM_recordOne hone hfold
    refine ⟨hrecorded, rfl, fun hnone => ?_⟩
    have hempty : p.2 = [] := by simpa using hnone
    rw [hquiet (by simpa [hempty] using hnew)]

end Metadata

/-! ### What a node reports -/

namespace Hosted

lemma mem_sizes {h : Hosted} {shard : ShardId} {size : Nat} :
    (shard, size) ∈ h.sizes ↔ ∃ s, h.shard shard = .ok s ∧ size = sizeEstimate s := by
  simp only [sizes, List.mem_map, Prod.exists, List.mem_zipIdx_iff_getElem?, shard_eq_ok,
    Prod.mk.injEq]
  constructor
  · rintro ⟨s, _, hs, rfl, rfl⟩
    exact ⟨s, hs, rfl⟩
  · rintro ⟨s, hs, rfl⟩
    exact ⟨s, shard, hs, rfl, rfl⟩

end Hosted

lemma LwwRegistry.mem_items {K V : Type} [Key K] {r : LwwRegistry K V} {k : K} {v : V} :
    (k, v) ∈ r.items ↔ r.get? k = some v := by
  simp only [items, get?, List.mem_filterMap, Prod.exists, SortedMap.mem_entries_iff,
    Option.map_eq_some_iff, Prod.mk.injEq, Option.bind_eq_some_iff]
  constructor
  · rintro ⟨_, e, he, _, hv, rfl, rfl⟩
    exact ⟨e, he, hv⟩
  · rintro ⟨e, he, hv⟩
    exact ⟨k, e, he, v, hv, rfl, rfl⟩

namespace Node

variable {n : Node} {e : ReplicaHolding × Nat} {r : ReplicaId}

lemma mem_sizeReports : e ∈ n.sizeReports ↔ ∃ h ∈ n.hosted.values, ∃ shard s,
    h.shard shard = .ok s ∧ e = (⟨h.replica shard, n.info.id⟩, sizeEstimate s) ∧
      (0 < sizeEstimate s ∨ n.distributor.isReadReplica (h.replica shard) n.info.id = true) := by
  rw [sizeReports, List.mem_flatMap]
  refine exists_congr fun h => and_congr_right fun _ => ?_
  rw [List.mem_filterMap]
  constructor
  · rintro ⟨⟨shard, size⟩, hsize, hreport⟩
    obtain ⟨s, hs, rfl⟩ := Hosted.mem_sizes.mp hsize
    simp only [Option.ite_none_right_eq_some, Bool.or_eq_true, decide_eq_true_eq,
      Option.some.injEq] at hreport
    exact ⟨shard, s, hs, hreport.2.symm, hreport.1⟩
  · rintro ⟨shard, s, hs, rfl, hreported⟩
    refine ⟨(shard, sizeEstimate s), Hosted.mem_sizes.mpr ⟨s, hs, rfl⟩, if_pos ?_⟩
    simpa only [Bool.or_eq_true, decide_eq_true_eq] using hreported

/-- A hosted replica has one size. -/
lemma Named.unequivocal (hn : n.Named) : Metadata.Unequivocal n.sizeReports := by
  have hget : ∀ h ∈ n.hosted.values, n.hosted.get? h.id = some h := fun h hh => by
    obtain ⟨id, hid⟩ := SortedMap.mem_values.mp hh
    rwa [hn id h hid]
  intro e he e' he' hsame
  obtain ⟨h, hh, shard, s, hs, rfl, -⟩ := mem_sizeReports.mp he
  obtain ⟨h', hh', shard', s', hs', rfl, -⟩ := mem_sizeReports.mp he'
  obtain ⟨hid, rfl⟩ := ReplicaId.mk.inj (ReplicaHolding.mk.inj hsame).1
  obtain rfl : h = h' := Option.some.inj ((hget h hh).symm.trans (hid ▸ hget h' hh'))
  rw [hs, Except.ok.injEq] at hs'
  rw [hs']

/-- When a node records its sizes, just these come to be on record, and it refreshes its topology
unless they all were before. -/
lemma Named.recordSizes {n' : Node} {clock : Int} {δs : Option Payload} (hn : n.Named)
    (h : n.recordSizes clock = .ok (n', δs)) :
    ∃ sizes, (∀ e ∈ n.sizeReports, sizes.get? e.1 = some e.2) ∧
      (sizes = n.metadata.sizes ∧ n' = n ∨
        n' = { n with metadata := { n.metadata with sizes } }.refreshTopology.1) := by
  rw [Node.recordSizes] at h
  cases hrecord : n.metadata.recordSizes clock n.sizeReports with
  | error e =>
    rw [hrecord] at h
    cases h
  | ok p =>
    obtain ⟨metadata, δ?⟩ := p
    rw [hrecord] at h
    obtain ⟨hreports, hsizes, hquiet⟩ := Metadata.recordSizes_spec hn.unequivocal hrecord
    refine ⟨metadata.sizes, hreports, ?_⟩
    cases δ? with
    | none =>
      cases h
      obtain rfl := hquiet rfl
      exact .inl ⟨rfl, rfl⟩
    | some δs =>
      cases h
      rw [← hsizes]
      exact .inr rfl

/-! ### Who is taken for a holder -/

lemma mem_holders {m : Metadata} {id : NodeId} :
    ((view m).holders.getD r .empty).contains id = true ↔
      m.isMember id = true ∧ ∃ size, m.sizes.get? ⟨r, id⟩ = some size ∧ size ≠ 0 := by
  have hfold := SortedMap.mem_getD_foldl_insert (fun e : ReplicaHolding × Nat => e.1.replica)
    (fun e => e.1.node) (storedSizes m) .empty r id
  rw [SortedSet.contains_iff]
  refine hfold.trans ⟨?_, ?_⟩
  · rintro (hempty | ⟨⟨⟨r, id⟩, size⟩, he, rfl, rfl⟩)
    · exact absurd hempty SortedSet.not_mem_empty
    · obtain ⟨hitem, hkept⟩ := List.mem_filter.mp he
      simp only [Bool.and_eq_true, decide_eq_true_eq] at hkept
      exact ⟨hkept.2, size, LwwRegistry.mem_items.mp hitem, hkept.1⟩
  · rintro ⟨hmember, size, hsize, hpos⟩
    refine .inr ⟨(⟨r, id⟩, size), List.mem_filter.mpr ⟨LwwRegistry.mem_items.mpr hsize, ?_⟩, rfl, rfl⟩
    simp [hpos, hmember]

/-- A member with data on record reads the replica, by the plan for what is on record. -/
lemma isReadReplica_of_recorded {m : Metadata} {member : NodeInfo} {r : ReplicaId} {size : Nat}
    {d : InstanceDescriptor} (hmember : member ∈ m.members)
    (hsize : m.sizes.get? ⟨r, member.id⟩ = some size) (hpos : 0 < size) (hd : d ∈ m.descriptors)
    (hr : r ∈ d.replicas) (t : Float) (past : List ClusterView) :
    let plan := (Distributor.ofThreshold Placement.ringDistribution t).feed (past ++ [view m])
    plan.isReadReplica r member.id = true ∧ r ∈ plan.heldBy member.id := by
  have hmember' : m.isMember member.id = true :=
    List.any_eq_true.mpr ⟨member, hmember, decide_eq_true rfl⟩
  exact Distributor.isReadReplica_of_holds (v := view m) hmember
    (mem_holders.mpr ⟨hmember', size, hsize, hpos.ne'⟩)
    ⟨_, List.mem_flatMap.mpr ⟨d, hd, List.mem_map_of_mem hr⟩, rfl⟩

end Node

end DeltaRing
