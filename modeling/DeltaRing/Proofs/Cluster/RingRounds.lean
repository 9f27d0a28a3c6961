import DeltaRing.Proofs.Cluster.Exchanges
import DeltaRing.Proofs.Cluster.Rerouting
import DeltaRing.Proofs.Placement.Successor
import DeltaRing.Proofs.Replication.Absorption
import DeltaRing.Proofs.Replication.Coded
import DeltaRing.Proofs.Simulation.Rounds
import DeltaRing.Proofs.Wire.Timestamps

/-!
Exchanging a replica along the ring makes its copies equal.

In a round every reader of a replica exchanges it once with its successor among the readers, so two
neighbours have met by the end of the round whoever went first. What one of them reflected before
the round, both reflect after it, and no node of a ring is as many steps away as the ring has nodes.
All that the readers make of their states they make of the deltas that they had between them, so
once each reflects all of these they are equal.
-/

namespace DeltaRing

open DeltaRing.Action Exchange LawfulWire

/-! ### States made of deltas -/

section

variable {S D T : Type} [DeltaCrdt S D T] {E : Set D} {a b s : S}

def Made (E : Set D) (s : S) : Prop := ∃ l : List D, (∀ δ ∈ l, δ ∈ E) ∧ s = (mergeAll initial l).1

lemma Made.mergeAll (hs : Made E s) {l : List D} (hl : ∀ δ ∈ l, δ ∈ E) :
    Made E (mergeAll s l).1 := by
  obtain ⟨l₀, hl₀, rfl⟩ := hs
  refine ⟨l₀ ++ l, fun δ hδ => ?_, (mergeAll_append _ _ _).symm⟩
  exact (List.mem_append.mp hδ).elim (hl₀ δ) (hl δ)

lemma Made.fits [Wire D] [LawfulWire D] [Wire T] [LawfulWire T] [Sendable S]
    (hfits : ∀ δ ∈ E, Fits δ) (hs : Made E s) : Fits (timestamp s) := by
  obtain ⟨l, hl, rfl⟩ := hs
  exact Sendable.fits_mergeAll Sendable.fits_initial fun δ hδ => hfits δ (hl δ hδ)

variable [CausalTimestamp T D] [Authored D] [Summary S D] [Convergent S]

lemma Made.exists_summary {emitted : Set D} (hemitted : Coherent emitted) (hE : E ⊆ emitted)
    (hs : Made E s) : ∃ X ⊆ E, Summarizes s X := by
  obtain ⟨l, hl, rfl⟩ := hs
  refine ⟨{δ | δ ∈ l}, hl, ?_⟩
  simpa using Convergent.summarizes_mergeAll hemitted (Set.empty_subset emitted)
    (Set.Subset.trans hl hE) (Convergent.summarizes_initial (S := S))

lemma Made.summarizes {emitted : Set D} (hemitted : Coherent emitted) (hE : E ⊆ emitted)
    (hs : Made E s) {l : List D} (hl : E = {δ | δ ∈ l})
    (hall : ∀ δ ∈ E, reflects (timestamp s) δ = true) : Summarizes s E := by
  obtain ⟨X, hX, hsum⟩ := hs.exists_summary hemitted hE
  subst hl
  have := Convergent.summarizes_of_reflects hemitted (hX.trans hE) hE hsum hall
  rwa [Set.union_eq_self_of_subset_left hX] at this

variable [Retentive S] [Absorbing S]

/-- Who merges all that a replica has to send reflects what that replica does. -/
lemma reflects_of_pending {X Y : Set D} (hk : Kin E X Y a b) {ds : List D} {δ : D}
    (hds : ∀ δ, δ ∈ ds ↔ δ ∈ pending b a) (hδ : δ ∈ E)
    (h : reflects (timestamp a) δ = true ∨ reflects (timestamp b) δ = true) :
    reflects (timestamp (mergeAll a ds).1) δ = true := by
  have hkept : ∀ ε, reflects (timestamp a) ε = true →
      reflects (timestamp (mergeAll a ds).1) ε = true := fun ε => Retentive.reflects_mergeAll
  have hsubset : {ε | ε ∈ ds} ⊆ E := fun ε hε => hk.right_subset (hk.symm.mem_left ((hds ε).mp hε))
  rcases h with h | h
  · exact hkept δ h
  · exact Convergent.reflects_of_listing hk.coherent hk.right_subset
      (Set.union_subset hk.left_subset hsubset) hk.right
      (Convergent.summarizes_mergeAll hk.coherent hk.left_subset hsubset hk.left)
      (fun ε _ => hkept ε) (fun ε hε => reflects_mergeAll_of_mem ((hds ε).mpr hε)) hδ h

variable [Listing S] [Wire D] [LawfulWire D] [Wire T] [LawfulWire T] {m n capacity : Nat}

/-- Deltas of a run that can be exchanged: they travel, and so does the timestamp of whatever is
made of them. -/
structure Exchangeable (S : Type) {D T : outParam Type} [DeltaCrdt S D T] [Authored D] [Wire D]
    [LawfulWire D] [Wire T] [LawfulWire T] (E : Set D) : Prop where
  run : ∃ emitted, Coherent emitted ∧ E ⊆ emitted
  deltas : ∀ δ ∈ E, Travels [δ]
  timestamps : ∀ s : S, Made E s → Travels (timestamp s)

/-- An exchange brings both sides what either reflects. -/
lemma exists_report_of_made (capacity : Nat) (hE : Exchangeable S E) (ha : Made E a)
    (hb : Made E b) (hm : 0 < m) (hn : 0 < n) :
    let x : Duplex S T S T := (Duplex.connect (.start a m) (.start b n) capacity).run
    (∃ report, x.left.outcome = .ok report) ∧ Made E x.left.state ∧ Made E x.right.state ∧
      ∀ δ ∈ E, reflects (timestamp a) δ = true ∨ reflects (timestamp b) δ = true →
        reflects (timestamp x.left.state) δ = true ∧
          reflects (timestamp x.right.state) δ = true := by
  intro x
  obtain ⟨emitted, hemitted, hsubset⟩ := hE.run
  obtain ⟨X, hX, hsum⟩ := ha.exists_summary hemitted hsubset
  obtain ⟨Y, hY, hsum'⟩ := hb.exists_summary hemitted hsubset
  have hkin : Kin emitted X Y a b :=
    ⟨hemitted, hX.trans hsubset, hY.trans hsubset, hsum, hsum'⟩
  have hk : Parley emitted X Y a b := ⟨hkin, fun δ hδ => hE.deltas δ (hX (hkin.mem_left hδ)),
    fun δ hδ => hE.deltas δ (hY (hkin.symm.mem_left hδ)), hE.timestamps a ha, hE.timestamps b hb⟩
  obtain ⟨⟨gone, came, frames, frames', taken, taken', hc⟩, hleft, hright⟩ :=
    run_course capacity hk.follows hk.symm.follows hm hn length_pending_le
      length_pending_le
  obtain ⟨r, hr⟩ := Option.ne_none_iff_exists'.mp hleft
  obtain ⟨r', hr'⟩ := Option.ne_none_iff_exists'.mp hright
  obtain ⟨⟨result, rfl, -⟩, hstate, hgone, hcame⟩ := hc.report hm hn hr
  obtain ⟨-, hstate', -, -⟩ := hc.swap.report hn hm hr'
  have hstate' : x.right.state = (mergeAll b gone.flatten).1 := hstate'
  have hmade : Made E (mergeAll a came.flatten).1 := ha.mergeAll fun δ hδ =>
    hY (hk.symm.toKin.mem_left ((hcame δ).mp hδ))
  have hmade' : Made E (mergeAll b gone.flatten).1 := hb.mergeAll fun δ hδ =>
    hX (hk.toKin.mem_left ((hgone δ).mp hδ))
  rw [hstate, hstate']
  refine ⟨⟨_, by rw [Half.outcome, hr, Option.getD_some]⟩, hmade, hmade', fun δ hδ h => ?_⟩
  exact ⟨reflects_of_pending hk.toKin hcame (hsubset hδ) h,
    reflects_of_pending hk.symm.toKin hgone (hsubset hδ) h.symm⟩

end

/-! ### Turns -/

/-- What a node believes of a replica whose readers exchange it along their ring: it knows who they
are and marks none of them. -/
structure Node.Reader (n : Node) (timer : Nat) (r : ReplicaId) (readers : List NodeInfo) :
    Prop where
  named : n.Named
  planned : ∀ p, p ∈ n.distributor.readReplicas r ↔ p ∈ readers
  successor : n.antiEntropy = Selection.ringSuccessor
  unmarked : ∀ p ∈ readers, n.outbox.failures.isUnreachable timer p.id = false
  caughtUp : n.resume.get? r = none

namespace Node.Reader

variable {n n' : Node} {timer k : Nat} {r : ReplicaId} {readers : List NodeInfo}

lemma noting (h : n.Reader timer r readers) (hn : n.Noting n') : n'.Reader timer r readers where
  named := h.named.of_hosted hn.hosted
  planned := by
    rw [hn.rest]
    exact h.planned
  successor := by
    rw [hn.rest]
    exact h.successor
  unmarked p hp := hn.isUnreachable (h.unmarked p hp)
  caughtUp := hn.resume r h.caughtUp

lemma setHosted (h : n.Reader timer r readers) (hosted : Hosted) :
    (n.setHosted hosted).Reader timer r readers :=
  ⟨h.named.setHosted hosted, h.planned, h.successor, h.unmarked, h.caughtUp⟩

/-- A reader exchanges the replica with the one after it on the ring. -/
lemma partner?_eq (h : n.Reader timer r readers) (hreaders : Selection.Distinct readers)
    (hk : (Placement.ringOf readers)[k]? = some n.info) : Cluster.partner? n timer r =
      if (Placement.ringOf readers).length = 1 then none
      else (Placement.ringOf readers)[(k + 1) % (Placement.ringOf readers).length]? := by
  have hring : Placement.ringOf (n.distributor.readReplicas r) = Placement.ringOf readers :=
    Placement.ringOf_congr h.planned
  have hdistinct : Selection.Distinct (n.distributor.readReplicas r) := fun p hp q hq =>
    hreaders p ((h.planned p).mp hp) q ((h.planned q).mp hq)
  have hfree : (n.distributor.readReplicas r).filter
      (fun p => !n.outbox.failures.isUnreachable timer p.id) = n.distributor.readReplicas r :=
    List.filter_eq_self.mpr fun p hp => by rw [h.unmarked p ((h.planned p).mp hp)]; rfl
  have hpick := Selection.ringSuccessor_of_getElem? hdistinct (hring ▸ hk)
  rw [hring] at hpick
  have hresume : n.resumePeer timer r (n.distributor.readReplicas r) = none := by
    simp [resumePeer, h.caughtUp]
  rw [Cluster.partner?, hresume]
  change n.pickPeer timer (n.distributor.readReplicas r) = _
  rw [pickPeer, hfree, h.successor, hpick]
  split
  · rfl
  · exact Option.head?_toList

end Node.Reader

namespace Cluster

variable {t : CrdtType} {c c' : Cluster} {r : ReplicaId} {seats ring turns : List Seat}
  {info : Seat → NodeInfo} {state state' : Seat → t.State} {i j : Seat} {E : Set t.Delta} {k : Nat}
  {s : RoundSummary}

structure Readers (c : Cluster) (r : ReplicaId) (seats : List Seat) (info : Seat → NodeInfo)
    (state : Seat → t.State) : Prop where
  nodes : ∀ i ∈ seats, ∃ n, n.info = info i ∧ c.Online i n ∧
    n.Reader c.timer r (seats.map info) ∧ n.Holds r (Is (state i))
  distinct : ∀ i ∈ seats, ∀ j ∈ seats, (info i).id = (info j).id → i = j

/-- Two replicas reflect what either did before, and no other has changed. -/
structure Met (E : Set t.Delta) (i j : Seat) (state state' : Seat → t.State) : Prop where
  others : ∀ k, k ≠ i → k ≠ j → state' k = state k
  learnt : ∀ δ ∈ E, reflects (timestamp (state i)) δ = true ∨
    reflects (timestamp (state j)) δ = true →
      reflects (timestamp (state' i)) δ = true ∧ reflects (timestamp (state' j)) δ = true

lemma Met.reflects (h : Met E i j state state') {δ : t.Delta} (hδ : δ ∈ E) (k : Seat)
    (hk : reflects (timestamp (state k)) δ = true) : reflects (timestamp (state' k)) δ = true := by
  by_cases hi : k = i
  · subst hi
    exact (h.learnt δ hδ (.inl hk)).1
  · by_cases hj : k = j
    · subst hj
      exact (h.learnt δ hδ (.inr hk)).2
    · rwa [h.others k hi hj]

/-- The readers as they are after a turn of one of them, and what they have made of their states. -/
structure Turned (E : Set t.Delta) (r : ReplicaId) (seats : List Seat) (info : Seat → NodeInfo)
    (i j : Seat) (state : Seat → t.State) (c' : Cluster) (state' : Seat → t.State) : Prop where
  readers : c'.Readers r seats info state'
  made : ∀ k ∈ seats, Made E (state' k)
  met : Met E i j state state'

/-- Two readers have changed, and the cluster around them has not. -/
lemma Readers.replace (hc : c.Readers r seats info state) {n m : Node} {a b : t.State}
    (hn : n.info = info i ∧ c'.Online i n ∧ n.Reader c'.timer r (seats.map info) ∧
      n.Holds r (Is a))
    (hm : m.info = info j ∧ c'.Online j m ∧ m.Reader c'.timer r (seats.map info) ∧
      m.Holds r (Is b))
    (hothers : ∀ k, k ≠ i → k ≠ j → c'.nodes.get? k = c.nodes.get? k)
    (hservices : c'.services = c.services) (hcut : c'.cut = c.cut) (htimer : c'.timer = c.timer) :
    c'.Readers r seats info fun k => if k = i then a else if k = j then b else state k := by
  refine ⟨fun k hk => ?_, hc.distinct⟩
  by_cases hki : k = i
  · subst hki
    rw [if_pos rfl]
    exact ⟨n, hn⟩
  · rw [if_neg hki]
    by_cases hkj : k = j
    · subst hkj
      rw [if_pos rfl]
      exact ⟨m, hm⟩
    · rw [if_neg hkj, htimer]
      obtain ⟨o, hinfo, ho, hreader, hholds⟩ := hc.nodes k hk
      exact ⟨o, hinfo, ho.of_get? ((hothers k hki hkj).trans ho.node) rfl ho.ready hservices hcut,
        hreader, hholds⟩

/-- A reader that exchanges the replica with another one. -/
lemma Readers.meet (hc : c.Readers r seats info state) (hE : Exchangeable t.State E)
    (hmade : ∀ k ∈ seats, Made E (state k)) (hi : i ∈ seats) (hj : j ∈ seats) (hij : i ≠ j)
    (hpartner : ∀ n, c.nodes.get? i = some n → partner? n c.timer r = some (info j))
    (s : RoundSummary) :
    ∃ s' c' state', exec (syncReplica i s r) c = (.ok s', c') ∧
      Turned E r seats info i j state c' state' := by
  obtain ⟨n, hinfo, hn, hreader, hholds⟩ := hc.nodes i hi
  obtain ⟨m, hinfo', hm, hreader', hholds'⟩ := hc.nodes j hj
  obtain ⟨⟨report, hreport⟩, hleft, hright, hlearnt⟩ := exists_report_of_made
    m.config.exchangeChannelCapacity hE (hmade i hi) (hmade j hj) hn.ready.batches
    hm.ready.batches
  have hexchange := @exec_exchange_of_holds n r c i j m t _ _ _ hn hm hij hreader.named
    hreader'.named hholds hholds' rfl
  generalize (Duplex.connect (.start (state i) n.config.exchangeBatchSize)
    (.start (state j) m.config.exchangeBatchSize) m.config.exchangeChannelCapacity).run = x at *
  obtain ⟨h, h', hstored, hstored', hexchange⟩ := hexchange
  rw [hreport, hinfo'] at hexchange
  obtain ⟨c₂, n₂, hsync, hapart₂, hn₂, hnoting₂⟩ :=
    exec_syncWith_of_exchange (s := s) hexchange SortedMap.get?_insert_self
  obtain ⟨resumed, c₃, n₃, hturn, hapart₃, hn₃, hnoting₃⟩ :=
    exec_syncReplica (s := s) hn.node (by rw [hpartner n hn.node]; exact hsync) hn₂ (by
      obtain ⟨h₂, _, hh₂, -⟩ := hnoting₂.holds hstored
      rw [hh₂, Option.isSome_some])
  have hapart := trans_of (Apart i) hapart₂ hapart₃
  have hnoting := trans_of Node.Noting hnoting₂ hnoting₃
  have hservices : c₃.services = c.services := hapart.services
  have hcut : c₃.cut = c.cut := hapart.cut
  have htimer : c₃.timer = c.timer := by rw [hapart.around]
  have hpeer : c₃.nodes.get? j = some (m.setHosted h') := by
    rw [hapart.others j hij.symm]
    exact (SortedMap.get?_insert_of_ne hij.symm).trans SortedMap.get?_insert_self
  have hothers : ∀ k, k ≠ i → k ≠ j → c₃.nodes.get? k = c.nodes.get? k := fun k hki hkj => by
    rw [hapart.others k hki]
    exact (SortedMap.get?_insert_of_ne hki).trans (SortedMap.get?_insert_of_ne hkj)
  have hready : (n.setHosted h).Ready := ⟨hn.ready.up, hn.ready.batches, hn.ready.room⟩
  have hready' : (m.setHosted h').Ready := ⟨hm.ready.up, hm.ready.batches, hm.ready.room⟩
  refine ⟨_, c₃, _, hturn, hc.replace (n := n₃) (m := m.setHosted h') (a := x.left.state)
    (b := x.right.state)
    ⟨hnoting.info.trans hinfo,
      hn.of_get? hn₃ hnoting.info (hnoting.ready hready) hservices hcut,
      htimer ▸ (hreader.setHosted h).noting hnoting, hnoting.holds hstored⟩
    ⟨hinfo', hm.of_get? hpeer rfl hready' hservices hcut, htimer ▸ hreader'.setHosted h', hstored'⟩
    hothers hservices hcut htimer, fun k hk => ?_, ⟨fun k hki hkj => ?_, fun δ hδ h => ?_⟩⟩
  · split
    · exact hleft
    · split
      · exact hright
      · exact hmade k hk
  · rw [if_neg hki, if_neg hkj]
  · rw [if_pos rfl, if_neg hij.symm, if_pos rfl]
    exact hlearnt δ hδ h

lemma Readers.keep (hc : c.Readers r seats info state) (hi : i ∈ seats) {n : Node}
    (hn : c.nodes.get? i = some n) {s₁ : RoundSummary} {calls : SortedMap String Nat}
    (hsync : exec ((partner? n c.timer r).elim (pure s) fun p => syncWith i p (.replica r) s) c =
      (.ok s₁, { c with calls })) :
    ∃ s' c', exec (syncReplica i s r) c = (.ok s', c') ∧ s'.failed = s₁.failed ∧
      c'.Readers r seats info state := by
  obtain ⟨n', hinfo, hn', hreader, hholds⟩ := hc.nodes i hi
  obtain rfl : n' = n := Option.some.inj (hn'.node.symm.trans hn)
  have hn₁ : ({ c with calls } : Cluster).nodes.get? i = some n' := hn
  obtain ⟨resumed, c', n₁, hturn, hapart, hn'₁, hnoting⟩ := exec_syncReplica hn hsync hn₁ (by
    obtain ⟨h, _, hh, -⟩ := hholds
    rw [hh, Option.isSome_some])
  have hservices : c'.services = c.services := hapart.services
  have hcut : c'.cut = c.cut := hapart.cut
  have htimer : c'.timer = c.timer := by rw [hapart.around]
  refine ⟨_, c', hturn, rfl, ⟨fun k hk => ?_, hc.distinct⟩⟩
  rw [htimer]
  by_cases hki : k = i
  · subst hki
    exact ⟨n₁, hnoting.info.trans hinfo,
      hn'.of_get? hn'₁ hnoting.info (hnoting.ready hn'.ready) hservices hcut,
      hreader.noting hnoting, hnoting.holds hholds⟩
  · obtain ⟨m, hinfo', hm, hreader', hholds'⟩ := hc.nodes k hk
    exact ⟨m, hinfo', hm.of_get? ((hapart.others k hki).trans hm.node) rfl hm.ready hservices hcut,
      hreader', hholds'⟩

lemma Readers.stay (hc : c.Readers r seats info state) (hi : i ∈ seats) {n : Node}
    (hn : c.nodes.get? i = some n) (hnone : partner? n c.timer r = none) (s : RoundSummary) :
    ∃ s' c', exec (syncReplica i s r) c = (.ok s', c') ∧ s'.failed = s.failed ∧
      c'.Readers r seats info state := by
  have hsync : exec ((partner? n c.timer r).elim (pure s) fun p => syncWith i p (.replica r) s) c =
      (.ok s, { c with calls := c.calls }) := by
    rw [hnone]
    rfl
  exact hc.keep hi hn hsync

/-! ### Rounds -/

lemma Readers.distinct_map (hc : c.Readers r seats info state) :
    Selection.Distinct (seats.map info) := by
  intro n hn m hm hid
  obtain ⟨i, hi, rfl⟩ := List.mem_map.mp hn
  obtain ⟨j, hj, rfl⟩ := List.mem_map.mp hm
  rw [hc.distinct i hi j hj hid]

structure RingOf (ring seats : List Seat) (info : Seat → NodeInfo) : Prop where
  perm : ring.Perm seats
  sorted : ring.map info = Placement.ringOf (seats.map info)

lemma Readers.exists_ringOf (hc : c.Readers r seats info state) (hseats : seats.Nodup) :
    ∃ ring, RingOf ring seats info := by
  let ring := seats.mergeSort fun i j => (compare (info i).id (info j).id).isLE
  have hperm : ring.Perm seats := List.mergeSort_perm _ _
  have hupto : ring.Pairwise fun i j => Key.Upto (info i).id (info j).id :=
    List.pairwise_mergeSort (fun i j k => Std.TransCmp.isLE_trans)
      (fun i j => by simpa using Key.upto_total (info i).id (info j).id) seats
  have hsorted : ring.Pairwise fun i j => Key.Before (info i).id (info j).id :=
    (hupto.and (hperm.nodup_iff.mpr hseats)).imp_of_mem fun hi hj h =>
      h.1.before_of_ne fun hid =>
        h.2 (hc.distinct _ (hperm.mem_iff.mp hi) _ (hperm.mem_iff.mp hj) hid)
  refine ⟨ring, hperm, Placement.eq_of_sorted (List.pairwise_map.mpr hsorted)
    (Placement.sorted_ringOf _) fun n => ?_⟩
  rw [Selection.mem_ringOf_of_distinct hc.distinct_map, (hperm.map info).mem_iff]

/-- The reader at a place of the ring exchanges the replica with the next one, unless it is
alone. -/
lemma Readers.partner?_eq (hc : c.Readers r seats info state) (hring : RingOf ring seats info)
    (hi : ring[k]? = some i) (hj : ring[(k + 1) % ring.length]? = some j) {n : Node}
    (hn : c.nodes.get? i = some n) :
    partner? n c.timer r = if ring.length = 1 then none else some (info j) := by
  have hmem : i ∈ seats := hring.perm.mem_iff.mp (List.mem_of_getElem? hi)
  have hlength : (Placement.ringOf (seats.map info)).length = ring.length := by
    rw [← hring.sorted, List.length_map]
  have hget (l : Nat) : (Placement.ringOf (seats.map info))[l]? = ring[l]?.map info := by
    rw [← hring.sorted, List.getElem?_map]
  obtain ⟨n', hinfo, hn', hreader, -⟩ := hc.nodes i hmem
  obtain rfl : n' = n := Option.some.inj (hn'.node.symm.trans hn)
  rw [hreader.partner?_eq hc.distinct_map (k := k) (by rw [hget, hi, hinfo]; rfl), hlength, hget,
    hj, Option.map_some]

lemma RingOf.next_ne (hring : RingOf ring seats info) (hseats : seats.Nodup)
    (hi : ring[k]? = some i) (hj : ring[(k + 1) % ring.length]? = some j)
    (hone : ring.length ≠ 1) : i ≠ j := by
  obtain ⟨hlt, rfl⟩ := List.getElem?_eq_some_iff.mp hi
  obtain ⟨hlt', rfl⟩ := List.getElem?_eq_some_iff.mp hj
  intro heq
  have hplace := (hring.perm.nodup_iff.mpr hseats).getElem_inj_iff.mp heq
  rcases Nat.lt_or_ge (k + 1) ring.length with hnext | hlast
  · rw [Nat.mod_eq_of_lt hnext] at hplace
    omega
  · rw [show k + 1 = ring.length by omega, Nat.mod_self] at hplace
    omega

/-- What becomes of a reader's turn when exchanges work out. -/
lemma Readers.turn (hc : c.Readers r seats info state) (hE : Exchangeable t.State E)
    (hmade : ∀ k ∈ seats, Made E (state k)) (hseats : seats.Nodup)
    (hring : RingOf ring seats info) (hi : ring[k]? = some i)
    (hj : ring[(k + 1) % ring.length]? = some j) (s : RoundSummary) :
    ∃ s' c' state', exec (syncReplica i s r) c = (.ok s', c') ∧
      Turned E r seats info i j state c' state' := by
  have hmem : i ∈ seats := hring.perm.mem_iff.mp (List.mem_of_getElem? hi)
  have hmem' : j ∈ seats := hring.perm.mem_iff.mp (List.mem_of_getElem? hj)
  have hpartner : ∀ n, c.nodes.get? i = some n →
      partner? n c.timer r = if ring.length = 1 then none else some (info j) := fun n hn =>
    hc.partner?_eq hring hi hj hn
  by_cases hone : ring.length = 1
  · obtain rfl : i = j := by
      have hlt := (List.getElem?_eq_some_iff.mp hi).1
      rw [hone, Nat.mod_one] at hj
      obtain rfl : k = 0 := by omega
      exact Option.some.inj (hi.symm.trans hj)
    simp only [if_pos hone] at hpartner
    obtain ⟨n, -, hn, -⟩ := hc.nodes i hmem
    obtain ⟨s', c', hexec, -, hreaders⟩ := hc.stay hmem hn.node (hpartner n hn.node) s
    exact ⟨s', c', state, hexec, hreaders, hmade, fun _ _ _ => rfl, fun δ _ h => by tauto⟩
  · simp only [if_neg hone] at hpartner
    exact hc.meet hE hmade hmem hmem' (hring.next_ne hseats hi hj hone) hpartner s

lemma Readers.miss (hc : c.Readers r seats info state) {detail : String}
    (hdeep : ∀ k ∈ seats, (Wire.decode (Encoded.timestampOf (state k)) :
      Except ClusterError t.Timestamp) = .error (.serialization detail))
    (hring : RingOf ring seats info) (hi : i ∈ seats) (s : RoundSummary) :
    ∃ s' c', exec (syncReplica i s r) c = (.ok s', c') ∧
      s'.failed = s.failed + (if ring.length = 1 then 0 else 1) ∧
      c'.Readers r seats info state := by
  obtain ⟨k, hk⟩ := List.mem_iff_getElem?.mp (hring.perm.mem_iff.mpr hi)
  have hlt := (List.getElem?_eq_some_iff.mp hk).1
  have hnext : (k + 1) % ring.length < ring.length := Nat.mod_lt _ (by omega)
  have hj := List.getElem?_eq_getElem hnext
  set j := ring[(k + 1) % ring.length]
  have hmem : j ∈ seats := hring.perm.mem_iff.mp (List.getElem_mem hnext)
  obtain ⟨n, hinfo, hn, hreader, hholds⟩ := hc.nodes i hi
  obtain ⟨m, hinfo', hm, hreader', hholds'⟩ := hc.nodes j hmem
  have hpartner := hc.partner?_eq hring hk hj hn.node
  by_cases hone : ring.length = 1
  · rw [if_pos hone] at hpartner ⊢
    exact hc.stay hi hn.node hpartner s
  · rw [if_neg hone] at hpartner ⊢
    let c₁ : Cluster := { c with calls := c.calls.alter m.info.address fun n => n.getD 0 + 1 }
    have hx := (exec_exchange hn hm (.replica r)).trans
      (exec_exchangeReplica_of_undecodable (c := c₁) hn.node hm.node hn.ready hm.ready
        hreader.named hreader'.named hholds hholds' (hdeep i hi) (hdeep j hmem))
    have hsync := exec_syncWith_of_serialization (s := s) hx
    exact hc.keep hi hn.node (by rw [hpartner, ← hinfo']; exact hsync)

def takeTurns (r : ReplicaId) (turns : List Seat) : Action Cluster Unit :=
  turns.forM fun seat => do let _ ← syncReplica seat .empty r

lemma exec_takeTurns_append {turns' : List Seat} {c₁ : Cluster}
    (hfirst : exec (takeTurns r turns) c = (.ok (), c₁)) :
    exec (takeTurns r (turns ++ turns')) c = exec (takeTurns r turns') c₁ := by
  change exec (forM (turns ++ turns') _) c = _
  rw [List.forM_append]
  exact exec_bind_ok hfirst

/-- What the replicas of the readers have become after turns of some of them. -/
structure Gathered (E : Set t.Delta) (r : ReplicaId) (ring seats : List Seat)
    (info : Seat → NodeInfo) (turns : List Seat) (state : Seat → t.State) (c' : Cluster)
    (state' : Seat → t.State) : Prop where
  readers : c'.Readers r seats info state'
  made : ∀ k ∈ seats, Made E (state' k)
  kept : ∀ δ ∈ E, ∀ k, reflects (timestamp (state k)) δ = true →
    reflects (timestamp (state' k)) δ = true
  /-- Each has met the next one on the ring. -/
  met : ∀ k i j, ring[k]? = some i → ring[(k + 1) % ring.length]? = some j → i ∈ turns →
    ∀ δ ∈ E, reflects (timestamp (state i)) δ = true ∨ reflects (timestamp (state j)) δ = true →
      reflects (timestamp (state' i)) δ = true ∧ reflects (timestamp (state' j)) δ = true

lemma Readers.exists_gathered (hc : c.Readers r seats info state) (hE : Exchangeable t.State E)
    (hmade : ∀ k ∈ seats, Made E (state k)) (hseats : seats.Nodup)
    (hring : RingOf ring seats info) (hturns : ∀ i ∈ turns, i ∈ seats) :
    ∃ c' state', exec (takeTurns r turns) c = (.ok (), c') ∧
      Gathered E r ring seats info turns state c' state' := by
  induction turns generalizing c state with
  | nil => exact ⟨c, state, rfl, hc, hmade, fun _ _ _ => id, fun _ _ _ _ _ hi => by cases hi⟩
  | cons i turns ih =>
    obtain ⟨hi, hturns⟩ := List.forall_mem_cons.mp hturns
    obtain ⟨k, hk⟩ := List.mem_iff_getElem?.mp (hring.perm.mem_iff.mpr hi)
    have hlt := (List.getElem?_eq_some_iff.mp hk).1
    have hnext : (k + 1) % ring.length < ring.length := Nat.mod_lt _ (by omega)
    obtain ⟨s', c₁, state₁, hexec, hturned⟩ := hc.turn hE hmade hseats hring hk
      (List.getElem?_eq_getElem hnext) .empty
    obtain ⟨c', state', hexec', hgathered⟩ := ih hturned.readers hturned.made hturns
    refine ⟨c', state', ?_, hgathered.readers, hgathered.made,
      fun δ hδ l h => hgathered.kept δ hδ l (hturned.met.reflects hδ l h),
      fun l i' j hi' hj hmem δ hδ h => ?_⟩
    · have hone : exec (do let _ ← syncReplica i .empty r : Action Cluster Unit) c = (.ok (), c₁) := by
        rw [exec_bind_ok hexec, exec_pure]
      exact (exec_bind_ok hone).trans hexec'
    · rcases List.mem_cons.mp hmem with rfl | hmem
      · obtain rfl : k = l := by
          obtain ⟨_, hhere⟩ := List.getElem?_eq_some_iff.mp hk
          obtain ⟨_, hthere⟩ := List.getElem?_eq_some_iff.mp hi'
          exact (hring.perm.nodup_iff.mpr hseats).getElem_inj_iff.mp (hhere.trans hthere.symm)
        rw [List.getElem?_eq_getElem hnext, Option.some.injEq] at hj
        subst hj
        obtain ⟨hleft, hright⟩ := hturned.met.learnt δ hδ h
        exact ⟨hgathered.kept δ hδ _ hleft, hgathered.kept δ hδ _ hright⟩
      · exact hgathered.met l i' j hi' hj hmem δ hδ
          (h.imp (hturned.met.reflects hδ _) (hturned.met.reflects hδ _))

lemma Readers.exists_missed (hc : c.Readers r seats info state) {detail : String}
    (hdeep : ∀ k ∈ seats, (Wire.decode (Encoded.timestampOf (state k)) :
      Except ClusterError t.Timestamp) = .error (.serialization detail))
    (hring : RingOf ring seats info) (hturns : ∀ i ∈ turns, i ∈ seats) :
    ∃ c', exec (takeTurns r turns) c = (.ok (), c') ∧ c'.Readers r seats info state := by
  induction turns generalizing c with
  | nil => exact ⟨c, rfl, hc⟩
  | cons i turns ih =>
    obtain ⟨hi, hturns⟩ := List.forall_mem_cons.mp hturns
    obtain ⟨s', c₁, hexec, -, hreaders⟩ := hc.miss hdeep hring hi .empty
    obtain ⟨c', hexec', hreaders'⟩ := ih hreaders hturns
    have hone : exec (do let _ ← syncReplica i .empty r : Action Cluster Unit) c = (.ok (), c₁) := by
      rw [exec_bind_ok hexec, exec_pure]
    exact ⟨c', (exec_bind_ok hone).trans hexec', hreaders'⟩

/-- In every round of turns a delta gets a place further around the ring in both directions. -/
lemma Readers.exists_rounds (hc : c.Readers r seats info state) (hE : Exchangeable t.State E)
    (hmade : ∀ k ∈ seats, Made E (state k)) (hseats : seats.Nodup)
    (hring : RingOf ring seats info) {rounds : List (List Seat)}
    (hrounds : ∀ turns ∈ rounds, turns.Perm seats) :
    ∃ c' state', exec (takeTurns r rounds.flatten) c = (.ok (), c') ∧
      c'.Readers r seats info state' ∧ (∀ k ∈ seats, Made E (state' k)) ∧
      ∀ p q i j, ring[p]? = some i → ring[q]? = some j →
        Simulation.Near ring.length rounds.length p q →
        ∀ δ ∈ E, reflects (timestamp (state j)) δ = true →
          reflects (timestamp (state' i)) δ = true := by
  induction rounds using List.reverseRecOn with
  | nil =>
    refine ⟨c, state, rfl, hc, hmade, fun p q i j hp hq hnear δ _ h => ?_⟩
    obtain rfl := hnear.eq (List.getElem?_eq_some_iff.mp hp).1 (List.getElem?_eq_some_iff.mp hq).1
    rw [hp, Option.some.injEq] at hq
    exact hq ▸ h
  | append_singleton rounds turns ih =>
    obtain ⟨c₁, state₁, hexec, hc₁, hmade₁, hnear₁⟩ :=
      ih fun turns hturns => hrounds turns (List.mem_append_left _ hturns)
    have hturns : turns.Perm seats := hrounds turns (by simp)
    obtain ⟨c', state', hexec', hgathered⟩ := hc₁.exists_gathered hE hmade₁ hseats hring
      fun i (hi : i ∈ turns) => hturns.mem_iff.mp hi
    refine ⟨c', state', ?_, hgathered.readers, hgathered.made, fun p q i j hp hq hnear δ hδ h => ?_⟩
    · rw [List.flatten_concat, exec_takeTurns_append hexec, hexec']
    · have hall {i} {p : Nat} (hp : ring[p]? = some i) : i ∈ turns :=
        hturns.mem_iff.mpr (hring.perm.mem_iff.mp (List.mem_of_getElem? hp))
      rw [List.length_append] at hnear
      obtain ⟨p', hp', hnear', hstep⟩ := hnear.exists_step (List.getElem?_eq_some_iff.mp hp).1
      have hget := List.getElem?_eq_getElem hp'
      have hbefore := hnear₁ p' q _ j hget hq hnear' δ hδ h
      rcases hstep with rfl | hnext | hnext
      · rw [hp, Option.some.injEq] at hget
        exact hgathered.kept δ hδ i (hget ▸ hbefore)
      · obtain ⟨-, rfl⟩ := Simulation.mem_ringPairs.mp hnext
        exact (hgathered.met p i _ hp hget (hall hp) δ hδ (.inr hbefore)).1
      · obtain ⟨-, rfl⟩ := Simulation.mem_ringPairs.mp hnext
        exact (hgathered.met p' _ i hget hp (hall hget) δ hδ (.inl hbefore)).2

open World

/-- **Ring rounds make all readers equal.** Let some nodes read a replica, store the states of the
replicas of a run, reach and mark none of each other, and each exchange the replica with its
successor on the ring of readers. When in as many rounds as there are other readers each has taken
its turn, in whatever order in each of the rounds, then all have succeeded, and all nodes store one
state, whose timestamp is the join of those that they began with. The deltas that they began with
have to travel, and whatever is made of these must not have a timestamp that is nested deeper than a
reader follows it. -/
theorem equal_after_ring_rounds (actor : Seat ↪ Actor)
    (events : List (Event Seat t.Operation t.Timestamp)) {rounds : List (List Seat)}
    (hseats : seats.Nodup) (hrounds : ∀ turns ∈ rounds, turns.Perm seats)
    (hcount : seats.length - 1 ≤ rounds.length) :
    let w : World Seat t.State t.Delta := run actor events
    let E : Set t.Delta := {δ | δ ∈ seats.flatMap w.delivered}
    (∀ δ ∈ E, Travels [δ]) →
    (∀ s : t.State, Made E s → (toJson (timestamp s)).nesting ≤ Json.Reader.maxOpen) →
    c.Readers r seats info w.replica →
      ∃ c' s, exec (takeTurns r rounds.flatten) c = (.ok (), c') ∧
        timestamp s =
          (seats.map fun i => timestamp (w.replica i)).foldl Lattice.join Lattice.bottom ∧
        ∀ i ∈ seats, ∃ n, c'.nodes.get? i = some n ∧ n.Holds r (Is s) := by
  intro w E htravels hnesting hc
  have hw : Sound actor w := sound_run actor events
  have hsubset : E ⊆ {δ | δ ∈ w.emitted} := fun δ hδ => by
    obtain ⟨i, -, hi⟩ := List.mem_flatMap.mp hδ
    exact hw.delivered_subset i hi
  have hfits : ∀ δ ∈ E, Fits δ := fun δ hδ => (htravels δ hδ).fits δ (List.mem_singleton_self δ)
  have hE : Exchangeable t.State E :=
    ⟨⟨_, hw.coherent, hsubset⟩, htravels, fun s hs => ⟨hs.fits hfits, hnesting s hs⟩⟩
  have hmade : ∀ i ∈ seats, Made E (w.replica i) := fun i hi =>
    ⟨w.delivered i, fun δ hδ => List.mem_flatMap.mpr ⟨i, hi, hδ⟩,
      Convergent.eq_mergeAll_initial hw.coherent (hw.delivered_subset i) (hw.summarizes i)⟩
  obtain ⟨ring, hring⟩ := hc.exists_ringOf hseats
  obtain ⟨c', state', hexec, hc', hmade', hgathered⟩ :=
    hc.exists_rounds hE hmade hseats hring hrounds
  obtain ⟨u, hu, ht⟩ := Simulation.exists_join hw seats
  refine ⟨c', u, hexec, ?_, fun i hi => ?_⟩
  · rw [ht]
  · obtain ⟨n, -, hn, -, hholds⟩ := hc'.nodes i hi
    have hall : ∀ δ ∈ E, reflects (timestamp (state' i)) δ = true := by
      intro δ hδ
      obtain ⟨j, hj, hdelivered⟩ := List.mem_flatMap.mp hδ
      obtain ⟨p, hp⟩ := List.mem_iff_getElem?.mp (hring.perm.mem_iff.mpr hi)
      obtain ⟨q, hq⟩ := List.mem_iff_getElem?.mp (hring.perm.mem_iff.mpr hj)
      have hlt := (List.getElem?_eq_some_iff.mp hp).1
      obtain ⟨d, hd, hnear⟩ := Simulation.near_half hlt (List.getElem?_eq_some_iff.mp hq).1
      rw [hring.perm.length_eq] at hd hlt
      exact hgathered p q i j hp hq ⟨d, by omega, hnear⟩ δ hδ (Convergent.reflects_of_mem
        hw.coherent (hw.delivered_subset j) (hw.summarizes j) hdelivered)
    have hsum := (hmade' i hi).summarizes hw.coherent hsubset rfl hall
    rw [← Convergent.summarizes_unique hw.coherent hsubset hsum hu]
    exact ⟨n, hn.node, hholds⟩

/-! ### Three readers -/

def addedApart : World Seat (OrSet String) (OrSetDelta String) :=
  run (S := (CrdtType.orSet .string).State) Simulation.replicaActors
    ([.operate 0 (OrSetOperation.add "x"), .operate 1 (OrSetOperation.add "y"),
      .operate 2 (OrSetOperation.add "z")] :
      List (Event Seat (OrSetOperation String) CausalContext))

def threeInfos : Seat → NodeInfo
  | 0 => ⟨"a", "mem://a"⟩
  | 1 => ⟨"b", "mem://b"⟩
  | _ => ⟨"c", "mem://c"⟩

lemma reader_hostOf (info : NodeInfo) (readers : List NodeInfo) (s : t.State) (timer : Nat) :
    (hostOf info readers s).Reader timer ⟨"t", 0⟩ readers := by
  refine ⟨fun id h hh => ?_, fun p => Iff.rfl, rfl, fun p _ => rfl, rfl⟩
  by_cases hid : id = "t"
  · subst hid
    cases hh
    rfl
  · have hnone := (SortedMap.get?_insert_of_ne hid).symm.trans hh
    cases hnone

lemma holds_hostOf (info : NodeInfo) (readers : List NodeInfo) (s : t.State) :
    (hostOf info readers s).Holds ⟨"t", 0⟩ (Is s) :=
  ⟨_, _, rfl, rfl, .intro⟩

lemma ready_hostOf (info : NodeInfo) (readers : List NodeInfo) (s : t.State) :
    (hostOf info readers s).Ready :=
  ⟨rfl, (by decide : 0 < ({} : NodeConfig).exchangeBatchSize),
    (by decide : ({} : NodeConfig).exchangeChannelCapacity ≤ maxCapacity)⟩

/-- Three nodes read a set together, and each stores the replica of its seat. -/
def threeReaders : Cluster :=
  let host (seat : Seat) : Node :=
    hostOf (t := .orSet .string) (threeInfos seat) ([0, 1, 2].map threeInfos)
      (addedApart.replica seat)
  trio (host 0) (host 1) (host 2)

lemma readers_threeReaders : threeReaders.Readers (t := .orSet .string) ⟨"t", 0⟩ [0, 1, 2]
    threeInfos addedApart.replica where
  nodes i hi := by
    simp only [List.mem_cons, List.not_mem_nil, or_false] at hi
    rcases hi with rfl | rfl | rfl
    all_goals
      exact ⟨_, rfl, ⟨rfl, by decide +kernel, by decide +kernel, ready_hostOf _ _ _⟩,
        reader_hostOf _ _ _ _, holds_hostOf _ _ _⟩
  distinct := by decide

/-- After two rounds in different orders all three store all three items. -/
theorem all_items_after_two_rounds :
    ∃ c' s, exec (takeTurns ⟨"t", 0⟩ [1, 0, 2, 2, 1, 0]) threeReaders = (.ok (), c') ∧
      timestamp s = CausalContext.empty.insertAll
        [⟨"replica_0", 1⟩, ⟨"replica_1", 1⟩, ⟨"replica_2", 1⟩] ∧
      ∀ i ∈ [0, 1, 2], ∃ n, c'.nodes.get? i = some n ∧
        n.Holds ⟨"t", 0⟩ (Is (t := .orSet .string) s) := by
  have htravels : ∀ δ ∈ [0, 1, 2].flatMap addedApart.delivered, Travels [δ] := by
    have hdeltas : ∀ δ ∈ [OrSetDelta.add ⟨"replica_0", 1⟩ "x", .add ⟨"replica_1", 1⟩ "y",
        .add ⟨"replica_2", 1⟩ "z"], Travels [δ] := by
      simp only [List.forall_mem_cons]
      have hone : 1 < word64 := by decide
      exact ⟨.of_depth (List.forall_mem_singleton.mpr ⟨hone, trivial⟩) (by decide),
        .of_depth (List.forall_mem_singleton.mpr ⟨hone, trivial⟩) (by decide),
        .of_depth (List.forall_mem_singleton.mpr ⟨hone, trivial⟩) (by decide), by simp⟩
    exact hdeltas
  have hnesting : ∀ s : OrSet String, Made {δ | δ ∈ [0, 1, 2].flatMap addedApart.delivered} s →
      (toJson (timestamp s)).nesting ≤ Json.Reader.maxOpen := fun s hs =>
    (nesting_le_depth (hs.fits fun δ hδ => (htravels δ hδ).fits δ List.mem_cons_self)).trans
      (by decide)
  have hrounds : ∀ turns ∈ [[1, 0, 2], [2, 1, 0]], turns.Perm [0, 1, 2] := by decide
  obtain ⟨c', s, hexec, ht, hall⟩ := equal_after_ring_rounds (t := .orSet .string)
    Simulation.replicaActors _ (by decide) hrounds (by decide) htravels hnesting
    readers_threeReaders
  have hjoin : ([0, 1, 2].map fun i => timestamp (addedApart.replica i)).foldl Lattice.join
      Lattice.bottom = CausalContext.empty.insertAll
        [⟨"replica_0", 1⟩, ⟨"replica_1", 1⟩, ⟨"replica_2", 1⟩] := by
    decide +kernel
  exact ⟨c', s, hexec, ht.trans hjoin, hall⟩

/-! ### Two readers of what is too deep -/

def twoReaders (state : Seat → t.State) : Cluster :=
  let host (seat : Seat) : Node :=
    hostOf (threeInfos seat) ([0, 1].map threeInfos) (state seat)
  duo (host 0) (host 1)

lemma readers_twoReaders (state : Seat → t.State) :
    (twoReaders state).Readers ⟨"t", 0⟩ [0, 1] threeInfos state where
  nodes i hi := by
    let host (seat : Seat) : Node := hostOf (threeInfos seat) ([0, 1].map threeInfos) (state seat)
    have hserved := served_duo (a := host 0) (b := host 1) (by decide : "mem://a" ≠ "mem://b")
    rcases List.mem_pair.mp hi with rfl | rfl
    · exact ⟨host 0, rfl, ⟨rfl, hserved.1, rfl, ready_hostOf _ _ _⟩, reader_hostOf _ _ _ _,
        holds_hostOf _ _ _⟩
    · exact ⟨host 1, rfl, ⟨rfl, hserved.2, rfl, ready_hostOf _ _ _⟩, reader_hostOf _ _ _ _,
        holds_hostOf _ _ _⟩
  distinct := by decide

/-- Two replicas of a set in 42 maps, each of which has added an item of its own. -/
def addedDeep : World Seat ((CrdtType.orSet .string).inMaps 42).State
    ((CrdtType.orSet .string).inMaps 42).Delta :=
  let op := CrdtType.within CrdtType.addition 42
  run Simulation.replicaActors ([.operate 0 op, .operate 1 op] :
    List (Event Seat _ ((CrdtType.orSet .string).inMaps 42).Timestamp))

/-- After the one round that two readers are to need, they still store different states; and a queue
for `2 ^ 61` frames is refused whatever they store. -/
theorem deep_readers_stay_apart :
    (twoReaders addedDeep.replica).Readers ⟨"t", 0⟩ [0, 1] threeInfos addedDeep.replica ∧
      ∃ c', exec (takeTurns ⟨"t", 0⟩ [0, 1]) (twoReaders addedDeep.replica) = (.ok (), c') ∧
        (¬ ∃ s, ∀ i ∈ [0, 1], ∃ n, c'.nodes.get? i = some n ∧
          n.Holds ⟨"t", 0⟩ (Is (t := (CrdtType.orSet .string).inMaps 42) s)) ∧
        checkCapacity (2 ^ 61) = .error .queueTooLarge := by
  have hreaders := readers_twoReaders addedDeep.replica
  obtain ⟨ring, hring⟩ := hreaders.exists_ringOf (by decide)
  have hdeep : ∀ i ∈ [0, 1], (Wire.decode (Encoded.timestampOf (addedDeep.replica i)) :
      Except ClusterError ((CrdtType.orSet .string).inMaps 42).Timestamp) =
        .error (.serialization "the text does not decode") := by
    intro i hi
    rcases List.mem_pair.mp hi with rfl | rfl
    · exact CrdtType.decode_timestamp_addedWithin "replica_0" (le_refl 42)
    · exact CrdtType.decode_timestamp_addedWithin "replica_1" (le_refl 42)
  obtain ⟨c', hexec, hreaders'⟩ := hreaders.exists_missed hdeep hring fun i => id
  refine ⟨hreaders, c', hexec, fun ⟨s, hall⟩ => ?_, by decide⟩
  have hstored : ∀ i ∈ [0, 1], s = addedDeep.replica i := by
    intro i hi
    obtain ⟨n, hn, hholds⟩ := hall i hi
    obtain ⟨n', -, hn', -, hholds'⟩ := hreaders'.nodes i hi
    obtain rfl : n = n' := Option.some.inj (hn.symm.trans hn'.node)
    exact hholds.eq_of_is hholds'
  have hsame := (hstored 0 (by decide)).symm.trans (hstored 1 (by decide))
  have hcontexts := congrArg
    (OrMap.context (K := String) (V := ((CrdtType.orSet .string).inMaps 41).State)) hsame
  have hapart : CausalContext.empty.insert ⟨"replica_0", 1⟩ ≠
      CausalContext.empty.insert ⟨"replica_1", 1⟩ := by decide +kernel
  exact hapart hcontexts

end Cluster

end DeltaRing
