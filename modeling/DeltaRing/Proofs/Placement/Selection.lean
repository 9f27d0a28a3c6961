import DeltaRing.Proofs.Placement.Ring
import Mathlib.Data.List.Perm.Basic

/-!
What the strategies pick.

A strategy picks among the candidates it is given, never the local node, and no id twice. All other
candidates are picked by the one that leaves out none, and the successor on the ring is there
whenever there is another candidate.
-/

namespace DeltaRing

namespace Selection

open Key

variable {here n : NodeInfo} {ns cs : List NodeInfo} {last : NodeId} {pick : Strategy}

lemma distinctAfter_sublist (last : NodeId) (ns : List NodeInfo) :
    (distinctAfter last ns).Sublist ns := by
  induction ns generalizing last with
  | nil => exact .slnil
  | cons n ns ih =>
    rw [distinctAfter]
    split
    · exact (ih last).cons n
    · exact (ih n.id).cons_cons n

lemma exists_mem_distinctAfter (hn : n ∈ ns) :
    n.id = last ∨ ∃ m ∈ distinctAfter last ns, m.id = n.id := by
  induction ns generalizing last with
  | nil => cases hn
  | cons m ns ih =>
    rw [distinctAfter]
    split
    · rename_i hm
      rcases List.mem_cons.mp hn with rfl | hn
      · exact .inl hm
      · exact ih hn
    · rcases List.mem_cons.mp hn with rfl | hn
      · exact .inr ⟨n, by simp, rfl⟩
      · have hkept : n.id = m.id ∨ ∃ m' ∈ distinctAfter m.id ns, m'.id = n.id := ih hn
        rcases hkept with heq | ⟨m', hm', heq⟩
        · exact .inr ⟨m, by simp, heq.symm⟩
        · exact .inr ⟨m', List.mem_cons_of_mem m hm', heq⟩

lemma distinct_sublist (ns : List NodeInfo) : (distinct ns).Sublist ns := by
  cases ns with
  | nil => exact .slnil
  | cons n ns => exact (distinctAfter_sublist n.id ns).cons_cons n

/-- Every id is kept. -/
lemma exists_mem_distinct (hn : n ∈ ns) : ∃ m ∈ distinct ns, m.id = n.id := by
  cases ns with
  | nil => cases hn
  | cons m ns =>
    rcases List.mem_cons.mp hn with rfl | hn
    · exact ⟨n, by simp [distinct], rfl⟩
    · rcases exists_mem_distinctAfter hn with heq | ⟨m', hm', heq⟩
      · exact ⟨m, by simp [distinct], heq.symm⟩
      · exact ⟨m', List.mem_cons_of_mem m hm', heq⟩

lemma mem_others : n ∈ others here cs ↔ n ∈ cs ∧ n.id ≠ here.id := by
  simp [others]

/-- Candidates are picked, no id twice, and never the local node. -/
structure Picks (pick : Strategy) : Prop where
  candidate {here n : NodeInfo} {cs : List NodeInfo} : n ∈ pick here cs → n ∈ cs
  notHere {here n : NodeInfo} {cs : List NodeInfo} : n ∈ pick here cs → n.id ≠ here.id
  distinct (here : NodeInfo) (cs : List NodeInfo) :
    (pick here cs).Pairwise fun n m => n.id ≠ m.id

lemma mem_others_of_mem_allNodes (hn : n ∈ allNodes here cs) : n ∈ others here cs :=
  mem_sort.mp ((distinct_sublist _).subset hn)

lemma picks_allNodes : Picks allNodes where
  candidate hn := (mem_others.mp (mem_others_of_mem_allNodes hn)).1
  notHere hn := (mem_others.mp (mem_others_of_mem_allNodes hn)).2
  distinct here cs := (Placement.sorted_ringOf (others here cs)).imp Before.ne

lemma exists_mem_allNodes (hn : n ∈ cs) (hother : n.id ≠ here.id) :
    ∃ m ∈ allNodes here cs, m.id = n.id :=
  exists_mem_distinct (mem_sort.mpr (mem_others.mpr ⟨hn, hother⟩))

/-- One other candidate is picked if there is any. -/
lemma ringSuccessor_cases (here : NodeInfo) (cs : List NodeInfo) :
    others here cs = [] ∧ ringSuccessor here cs = [] ∨
      ∃ n ∈ others here cs, ringSuccessor here cs = [n] := by
  have hmem : ∀ n ∈ distinct (sortById (others here cs)), n ∈ others here cs := fun n hn =>
    List.mem_mergeSort.mp ((distinct_sublist _).subset hn)
  have hkept : ∀ n ∈ others here cs, ∃ m ∈ distinct (sortById (others here cs)), m.id = n.id :=
    fun n hn => exists_mem_distinct (List.mem_mergeSort.mpr hn)
  rw [ringSuccessor]
  generalize distinct (sortById (others here cs)) = ring at hmem hkept
  cases hfind : ring.find? fun n => compare here.id n.id = .lt with
  | some n => exact .inr ⟨n, hmem n (List.mem_of_find?_eq_some hfind), by simp⟩
  | none =>
    cases ring with
    | nil =>
      refine .inl ⟨List.eq_nil_iff_forall_not_mem.mpr fun n hn => ?_, by simp⟩
      obtain ⟨m, hm, -⟩ := hkept n hn
      cases hm
    | cons n ring => exact .inr ⟨n, hmem n (by simp), by simp⟩

lemma picks_ringSuccessor : Picks ringSuccessor where
  candidate {here n cs} hn := by
    rcases ringSuccessor_cases here cs with ⟨-, heq⟩ | ⟨m, hm, heq⟩ <;> rw [heq] at hn
    · cases hn
    · exact List.mem_singleton.mp hn ▸ (mem_others.mp hm).1
  notHere {here n cs} hn := by
    rcases ringSuccessor_cases here cs with ⟨-, heq⟩ | ⟨m, hm, heq⟩ <;> rw [heq] at hn
    · cases hn
    · exact List.mem_singleton.mp hn ▸ (mem_others.mp hm).2
  distinct here cs := by
    rcases ringSuccessor_cases here cs with ⟨-, heq⟩ | ⟨m, hm, heq⟩ <;> rw [heq]
    · exact .nil
    · exact List.pairwise_singleton _ m

lemma picks_randomNodes (count : Nat) {rearrange : List NodeInfo → List NodeInfo}
    (hperm : ∀ ns, (rearrange ns).Perm ns) : Picks (randomNodes count rearrange) where
  candidate hn := picks_allNodes.candidate ((hperm _).subset (List.mem_of_mem_take hn))
  notHere hn := picks_allNodes.notHere ((hperm _).subset (List.mem_of_mem_take hn))
  distinct here cs := by
    refine List.Pairwise.sublist (List.take_sublist _ _) ?_
    exact (hperm _).symm.pairwise (picks_allNodes.distinct here cs) Ne.symm

/-- The strategies that come with the program; what chance gives is some rearrangement. -/
inductive BuiltIn : Strategy → Prop
  | allNodes : BuiltIn allNodes
  | ringSuccessor : BuiltIn ringSuccessor
  | randomNodes (count : Nat) {rearrange : List NodeInfo → List NodeInfo} :
    (∀ ns, (rearrange ns).Perm ns) → BuiltIn (randomNodes count rearrange)

lemma BuiltIn.picks (h : BuiltIn pick) : Picks pick := by
  cases h with
  | allNodes => exact picks_allNodes
  | ringSuccessor => exact picks_ringSuccessor
  | randomNodes count hperm => exact picks_randomNodes count hperm

end Selection

end DeltaRing
