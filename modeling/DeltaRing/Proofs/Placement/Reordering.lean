import DeltaRing.Proofs.Placement.Cycle
import Mathlib.Data.List.Perm.Basic

/-!
What the order of the candidates decides.

Both strategies sort the other candidates and keep the first node of each id. One sorts by ids and
addresses, so the least address of an id is kept, and the order in which the candidates came is
forgotten. The other sorts by ids alone. That leaves nodes with one id as they came, so the address
that came first is kept. Hence the id of the successor is the same in every order, but its address
is the same only if the candidates agree on it.
-/

namespace DeltaRing.Selection

open Key Placement

variable {here n m : NodeInfo} {id last : NodeId} {cs cs' ns : List NodeInfo}

/-! ### Which address is kept -/

/-- Nodes with one id stay in the order in which they came. -/
lemma filter_sortById (id : NodeId) (ns : List NodeInfo) :
    (sortById ns).filter (fun n => n.id = id) = ns.filter fun n => n.id = id := by
  have hties : (ns.filter fun n => n.id = id).Pairwise fun n m => Upto n.id m.id := by
    refine List.pairwise_of_forall_mem_list fun n hn m hm => ?_
    have hn : n.id = id := of_decide_eq_true (List.mem_filter.mp hn).2
    have hm : m.id = id := of_decide_eq_true (List.mem_filter.mp hm).2
    rw [hn, hm]
    exact upto_refl id
  have hsub : (ns.filter fun n => n.id = id).Sublist (sortById ns) :=
    List.sublist_mergeSort (fun a b c => Std.TransCmp.isLE_trans)
      (fun a b => by simpa using upto_total a.id b.id) hties List.filter_sublist
  have hfilter := hsub.filter fun n => n.id = id
  simp only [List.filter_filter, Bool.and_self] at hfilter
  exact (hfilter.eq_of_length ((List.mergeSort_perm ns _).filter _).length_eq.symm).symm

lemma find?_sortById (id : NodeId) (ns : List NodeInfo) :
    (sortById ns).find? (fun n => n.id = id) = ns.find? fun n => n.id = id := by
  rw [← List.head?_filter, filter_sortById, List.head?_filter]

/-- In the order of ids, the first node of an id is the one that is kept. -/
lemma find?_of_mem_distinctAfter (hs : ns.Pairwise fun n m => Upto n.id m.id)
    (hlast : ∀ m ∈ ns, Upto last m.id) (hn : n ∈ distinctAfter last ns) :
    n.id ≠ last ∧ ns.find? (fun m => m.id = n.id) = some n := by
  induction ns generalizing last with
  | nil => cases hn
  | cons a rest ih =>
    obtain ⟨ha, hs⟩ := List.pairwise_cons.mp hs
    rw [distinctAfter] at hn
    split at hn
    · rename_i hid
      obtain ⟨hne, hfind⟩ := ih hs (fun m hm => hlast m (List.mem_cons_of_mem a hm)) hn
      exact ⟨hne, by rwa [List.find?_cons_of_neg (by simpa [hid] using hne.symm)]⟩
    · rename_i hid
      rcases List.mem_cons.mp hn with rfl | hn
      · exact ⟨hid, List.find?_cons_of_pos (by simp)⟩
      · obtain ⟨hne, hfind⟩ := ih hs ha hn
        refine ⟨?_, by rwa [List.find?_cons_of_neg (by simpa using hne.symm)]⟩
        -- `last` stands before `a`, and `a` before `n`
        rintro rfl
        have hle : Upto a.id n.id := ha n ((distinctAfter_sublist _ _).subset hn)
        exact hid (hle.antisymm (hlast a List.mem_cons_self))

lemma find?_of_mem_distinct (hs : ns.Pairwise fun n m => Upto n.id m.id) (hn : n ∈ distinct ns) :
    ns.find? (fun m => m.id = n.id) = some n := by
  cases ns with
  | nil => cases hn
  | cons a rest =>
    obtain ⟨ha, hs⟩ := List.pairwise_cons.mp hs
    rcases List.mem_cons.mp hn with rfl | hn
    · exact List.find?_cons_of_pos (by simp)
    · obtain ⟨hne, hfind⟩ := find?_of_mem_distinctAfter hs ha hn
      rwa [List.find?_cons_of_neg (by simpa using hne.symm)]

lemma find?_others (hne : id ≠ here.id) (cs : List NodeInfo) :
    (others here cs).find? (fun m => m.id = id) = cs.find? fun m => m.id = id := by
  rw [others, List.find?_filter]
  congr 1
  funext m
  by_cases hid : m.id = id <;> simp [hid, hne]

lemma mem_ring_of_mem_ringSuccessor (hn : n ∈ ringSuccessor here cs) :
    n ∈ distinct (sortById (others here cs)) := by
  rcases (mem_ringSuccessor rfl).mp hn with hfind | ⟨-, hhead⟩
  · exact List.mem_of_find?_eq_some hfind
  · exact List.mem_of_head? hhead

/-- The successor is the first candidate with its id. -/
lemma find?_of_mem_ringSuccessor (hn : n ∈ ringSuccessor here cs) :
    cs.find? (fun m => m.id = n.id) = some n := by
  have hfind := find?_of_mem_distinct (sorted_sortById _) (mem_ring_of_mem_ringSuccessor hn)
  rwa [find?_sortById, find?_others (picks_ringSuccessor.notHere hn)] at hfind

lemma mem_allNodes : n ∈ allNodes here cs ↔
    n ∈ cs ∧ n.id ≠ here.id ∧ ∀ m ∈ cs, m.id = n.id → Upto n m := by
  have hring : n ∈ allNodes here cs ↔
      n ∈ others here cs ∧ ∀ m ∈ others here cs, m.id = n.id → Upto n m := mem_ringOf
  simp only [hring, mem_others, and_imp, and_assoc]
  refine and_congr_right fun _ => and_congr_right fun hne => ?_
  exact forall₂_congr fun m _ => ⟨fun hleast hid => hleast (hid ▸ hne) hid, fun hleast _ => hleast⟩

/-! ### Which id is picked -/

lemma mem_others_congr (h : ∀ n, n ∈ cs ↔ n ∈ cs') :
    n ∈ others here cs ↔ n ∈ others here cs' := by
  simp only [mem_others, h]

lemma allNodes_congr (h : ∀ n, n ∈ cs ↔ n ∈ cs') : allNodes here cs = allNodes here cs' :=
  ringOf_congr fun _ => mem_others_congr h

lemma NextAfter.congr (hn : NextAfter id cs n) (h : ∀ n, n ∈ cs ↔ n ∈ cs') :
    NextAfter id cs' n := by
  simpa only [NextAfter, h] using hn

lemma NextAfter.unique (hn : NextAfter id cs n) (hm : NextAfter id cs m) (hncs : n ∈ cs)
    (hmcs : m ∈ cs) : n.id = m.id := by
  rcases hn with ⟨hn, hnleast⟩ | ⟨hnone, hnleast⟩ <;>
    rcases hm with ⟨hm, hmleast⟩ | ⟨hnone', hmleast⟩
  · exact (hnleast m hmcs hm).antisymm (hmleast n hncs hn)
  · exact absurd hn (hnone' n hncs)
  · exact absurd hm (hnone m hmcs)
  · exact (hnleast m hmcs).antisymm (hmleast n hncs)

/-- The successor has the next id and the first address that is given for it. -/
lemma mem_ringSuccessor_iff_nextAfter : n ∈ ringSuccessor here cs ↔
    n.id ≠ here.id ∧ NextAfter here.id (others here cs) n ∧
      cs.find? (fun m => m.id = n.id) = some n := by
  refine ⟨fun hn => ⟨picks_ringSuccessor.notHere hn, nextAfter_of_mem_ringSuccessor hn,
    find?_of_mem_ringSuccessor hn⟩, ?_⟩
  rintro ⟨hne, hnext, hfirst⟩
  have hn : n ∈ others here cs := mem_others.mpr ⟨List.mem_of_find?_eq_some hfirst, hne⟩
  rcases ringSuccessor_cases here cs with ⟨hnone, -⟩ | ⟨m, hm, hpicked⟩
  · exact absurd hn (by simp [hnone])
  · have hmem : m ∈ ringSuccessor here cs := hpicked ▸ List.mem_singleton_self m
    have hid : n.id = m.id := hnext.unique (nextAfter_of_mem_ringSuccessor hmem) hn hm
    rw [hid, find?_of_mem_ringSuccessor hmem] at hfirst
    rwa [← Option.some.inj hfirst]

/-- The id of the successor depends on who is a candidate, and on nothing else. -/
lemma ids_ringSuccessor_congr (here : NodeInfo) (h : ∀ n, n ∈ cs ↔ n ∈ cs') :
    (ringSuccessor here cs).map NodeInfo.id = (ringSuccessor here cs').map NodeInfo.id := by
  have hothers : ∀ n, n ∈ others here cs ↔ n ∈ others here cs' := fun n => mem_others_congr h
  rcases ringSuccessor_cases here cs with ⟨hnone, hpicked⟩ | ⟨n, hn, hpicked⟩ <;>
    rcases ringSuccessor_cases here cs' with ⟨hnone', hpicked'⟩ | ⟨m, hm, hpicked'⟩
  · rw [hpicked, hpicked']
  · exact absurd ((hothers m).mpr hm) (by simp [hnone])
  · exact absurd ((hothers n).mp hn) (by simp [hnone'])
  · have hnext := nextAfter_of_mem_ringSuccessor (hpicked ▸ List.mem_singleton_self n)
    have hnext' := nextAfter_of_mem_ringSuccessor (hpicked' ▸ List.mem_singleton_self m)
    have hid : n.id = m.id := (hnext.congr hothers).unique hnext' ((hothers n).mp hn) hm
    rw [hpicked, hpicked', List.map_singleton, List.map_singleton, hid]

/-! ### Two orders, and all orders -/

/-- Two orders lead to one successor where the candidate that is picked in one of them comes first
among those with its id in the other, too. -/
lemma ringSuccessor_eq_iff (h : ∀ n, n ∈ cs ↔ n ∈ cs') :
    ringSuccessor here cs = ringSuccessor here cs' ↔
      ∀ n ∈ ringSuccessor here cs, cs'.find? (fun m => m.id = n.id) = some n := by
  have hids := ids_ringSuccessor_congr here h
  refine ⟨fun heq n hn => find?_of_mem_ringSuccessor (heq ▸ hn), fun hfirst => ?_⟩
  rcases ringSuccessor_cases here cs with ⟨-, hpicked⟩ | ⟨n, -, hpicked⟩
  · rw [hpicked, List.map_nil, eq_comm, List.map_eq_nil_iff] at hids
    rw [hpicked, hids]
  · rw [hpicked, List.map_singleton, eq_comm, List.map_eq_singleton_iff] at hids
    obtain ⟨m, hpicked', hid⟩ := hids
    have hn : cs'.find? (fun a => a.id = n.id) = some n :=
      hfirst n (hpicked ▸ List.mem_singleton_self n)
    have hm : cs'.find? (fun a => a.id = m.id) = some m :=
      find?_of_mem_ringSuccessor (hpicked' ▸ List.mem_singleton_self m)
    rw [hid, hn] at hm
    rw [hpicked, hpicked', Option.some.inj hm]

/-- All orders lead to one successor where its id comes with one address. -/
lemma forall_ringSuccessor_eq_iff :
    (∀ ds, cs.Perm ds → ringSuccessor here cs = ringSuccessor here ds) ↔
      ∀ n ∈ ringSuccessor here cs, ∀ m ∈ cs, m.id = n.id → m = n := by
  constructor
  · intro hall n hn m hm hid
    -- move `m` to the front
    have hperm : cs.Perm (m :: cs.erase m) := List.perm_cons_erase hm
    have hfirst := (ringSuccessor_eq_iff fun _ => hperm.mem_iff).mp (hall _ hperm) n hn
    rw [List.find?_cons_of_pos (by simpa using hid)] at hfirst
    exact Option.some.inj hfirst
  · intro hone ds hperm
    refine (ringSuccessor_eq_iff fun _ => hperm.mem_iff).mpr fun n hn => ?_
    obtain ⟨m, hm⟩ : ∃ m, ds.find? (fun m => m.id = n.id) = some m := by
      rw [← Option.isSome_iff_exists, List.find?_isSome]
      exact ⟨n, hperm.mem_iff.mp (picks_ringSuccessor.candidate hn), by simp⟩
    have hid : m.id = n.id := by simpa using List.find?_some hm
    rw [hm, hone n hn m (hperm.mem_iff.mpr (List.mem_of_find?_eq_some hm)) hid]

/-- **The order of the candidates decides at most an address.** Whatever the order, every other
candidate is picked with the least of the addresses that are given for its id, and the successor has
the next id. Its address is the one that is given first. So two orders pick one successor exactly if
the same address of its id comes first in both, and all orders do exactly if its id has one address.
No id is picked twice, and never that of the local node. -/
theorem order_decides_at_most_an_address (here : NodeInfo) (h : cs.Perm cs') :
    allNodes here cs = allNodes here cs' ∧
    (∀ n, n ∈ allNodes here cs ↔
      n ∈ cs ∧ n.id ≠ here.id ∧ ∀ m ∈ cs, m.id = n.id → Upto n m) ∧
    (ringSuccessor here cs).map NodeInfo.id = (ringSuccessor here cs').map NodeInfo.id ∧
    (∀ n, n ∈ ringSuccessor here cs ↔
      n.id ≠ here.id ∧ NextAfter here.id (others here cs) n ∧
        cs.find? (fun m => m.id = n.id) = some n) ∧
    (ringSuccessor here cs = ringSuccessor here cs' ↔
      ∀ n ∈ ringSuccessor here cs, cs'.find? (fun m => m.id = n.id) = some n) ∧
    ((∀ ds, cs.Perm ds → ringSuccessor here cs = ringSuccessor here ds) ↔
      ∀ n ∈ ringSuccessor here cs, ∀ m ∈ cs, m.id = n.id → m = n) ∧
    Picks allNodes ∧ Picks ringSuccessor := by
  have hmem : ∀ n, n ∈ cs ↔ n ∈ cs' := fun _ => h.mem_iff
  exact ⟨allNodes_congr hmem, fun _ => mem_allNodes, ids_ringSuccessor_congr here hmem,
    fun _ => mem_ringSuccessor_iff_nextAfter, ringSuccessor_eq_iff hmem,
    forall_ringSuccessor_eq_iff, picks_allNodes, picks_ringSuccessor⟩

/-- Two addresses of a node that is not next do not matter. -/
theorem same_successor_past_two_addresses :
    let a : NodeInfo := ⟨"a", "mem://a1"⟩
    let a' : NodeInfo := ⟨"a", "mem://a2"⟩
    let b : NodeInfo := ⟨"b", "mem://b"⟩
    let c : NodeInfo := ⟨"c", "mem://c"⟩
    [a', a, b, c].Perm [c, a, b, a'] ∧
      allNodes b [a', a, b, c] = allNodes b [c, a, b, a'] ∧
      ringSuccessor b [c, a, b, a'] = [c] ∧
      ∀ ds, [a', a, b, c].Perm ds → ringSuccessor b ds = [c] := by
  intro a a' b c
  have hperm : [a', a, b, c].Perm [c, a, b, a'] := List.isPerm_iff.mp (by decide)
  have hpicked : ringSuccessor b [a', a, b, c] = [c] := by
    have hsorted : sortById (others b [a', a, b, c]) = [a', a, c] :=
      List.mergeSort_of_pairwise (by decide)
    rw [ringSuccessor, hsorted]
    decide
  obtain ⟨hall, -, -, -, htwo, hevery, -, -⟩ := order_decides_at_most_an_address b hperm
  rw [hpicked] at htwo hevery
  refine ⟨hperm, hall, (htwo.mpr ?_).symm, fun ds hds => (hevery.mpr ?_ ds hds).symm⟩ <;> decide

/-- Two addresses of the next node: the one that comes first is picked, whereas the strategy that
picks all takes the least. -/
theorem successor_at_first_address :
    let a : NodeInfo := ⟨"a", "mem://a1"⟩
    let a' : NodeInfo := ⟨"a", "mem://a2"⟩
    let b : NodeInfo := ⟨"b", "mem://b"⟩
    [a, a'].Perm [a', a] ∧ a ≠ a' ∧
      ringSuccessor b [a, a'] = [a] ∧ ringSuccessor b [a', a] = [a'] ∧
      allNodes b [a, a'] = [a] ∧ allNodes b [a', a] = [a] := by
  intro a a' b
  have hperm : [a, a'].Perm [a', a] := List.isPerm_iff.mp (by decide)
  have hsorted : sortById (others b [a, a']) = [a, a'] := List.mergeSort_of_pairwise (by decide)
  have hsorted' : sortById (others b [a', a]) = [a', a] := List.mergeSort_of_pairwise (by decide)
  have hall : allNodes b [a, a'] = [a] := by
    have hsort : sort (others b [a, a']) = [a, a'] := List.mergeSort_of_pairwise (by decide)
    rw [allNodes, hsort]
    decide
  refine ⟨hperm, by decide, ?_, ?_, hall, ?_⟩
  · rw [ringSuccessor, hsorted]
    decide
  · rw [ringSuccessor, hsorted']
    decide
  · exact (allNodes_congr fun _ => hperm.mem_iff.symm).trans hall

end DeltaRing.Selection
