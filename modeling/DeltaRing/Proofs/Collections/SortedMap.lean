import DeltaRing.Collections.SortedMap
import Mathlib.Data.List.Induction
import Mathlib.Data.List.Nodup
import Mathlib.Data.List.Perm.Subperm
import Mathlib.Tactic.Common

/-!
Sorted maps through `get?`.

A sorted map is determined by what it holds under every key, and every operation is known by
what it does to `get?`. After this module nobody looks at the entries.
-/

namespace DeltaRing

namespace SortedMap

variable {K V W : Type} [Key K] {m m' : SortedMap K V} {k k' : K} {v : V}

/-! ### The list behind a map -/

lemma find_cons_self (k : K) (v : V) (l : List (K × V)) : find k ((k, v) :: l) = some v := by
  simp [find]

lemma find_cons_of_ne (h : k ≠ k') (v : V) (l : List (K × V)) :
    find k ((k', v) :: l) = find k l := by
  rw [find, if_neg (mt Key.compare_eq_iff.mp h)]

lemma mem_of_find_eq_some {l : List (K × V)} (h : find k l = some v) : (k, v) ∈ l := by
  induction l with
  | nil => simp [find] at h
  | cons e l ih =>
    obtain ⟨k', w⟩ := e
    by_cases hk : k = k'
    · subst hk
      rw [find_cons_self] at h
      simp [Option.some.inj h]
    · rw [find_cons_of_ne hk] at h
      exact List.mem_cons_of_mem _ (ih h)

lemma find_eq_none {l : List (K × V)} (h : ∀ e ∈ l, k ≠ e.1) : find k l = none := by
  induction l with
  | nil => rfl
  | cons e l ih =>
    rw [find_cons_of_ne (h e (by simp)), ih fun e he => h e (by simp [he])]

lemma find_eq_some_of_mem {l : List (K × V)}
    (hl : l.Pairwise fun a b => Key.Before a.1 b.1) (h : (k, v) ∈ l) : find k l = some v := by
  induction l with
  | nil => simp at h
  | cons e l ih =>
    obtain ⟨hlt, hl⟩ := List.pairwise_cons.mp hl
    rcases List.mem_cons.mp h with rfl | h
    · exact find_cons_self k v l
    · rw [find_cons_of_ne (Key.Before.ne (hlt _ h)).symm, ih hl h]

lemma find_alterList_of_ne (h : k' ≠ k) (f : Option V → V) (l : List (K × V)) :
    find k' (alterList k f l) = find k' l := by
  induction l with
  | nil => exact find_cons_of_ne h _ _
  | cons e l ih =>
    obtain ⟨k₀, w⟩ := e
    simp only [alterList]
    split
    · exact find_cons_of_ne h _ _
    · rename_i heq
      rw [Key.compare_eq_iff.mp heq] at h
      rw [find_cons_of_ne h, find_cons_of_ne h]
    · by_cases hk : k' = k₀
      · subst hk
        rw [find_cons_self, find_cons_self]
      · rw [find_cons_of_ne hk, find_cons_of_ne hk, ih]

lemma find_alterList_self (f : Option V → V) {l : List (K × V)}
    (hl : l.Pairwise fun a b => Key.Before a.1 b.1) :
    find k (alterList k f l) = some (f (find k l)) := by
  induction l with
  | nil => exact find_cons_self _ _ _
  | cons e l ih =>
    obtain ⟨k₀, w⟩ := e
    obtain ⟨hlt, hl⟩ := List.pairwise_cons.mp hl
    simp only [alterList]
    split
    · rename_i hk
      -- everything in the list comes after `k`
      have hnone : find k ((k₀, w) :: l) = none := by
        refine find_eq_none fun e he => ?_
        rcases List.mem_cons.mp he with rfl | he
        · exact Key.Before.ne hk
        · exact Key.Before.ne (Key.Before.trans hk (hlt e he))
      rw [find_cons_self, hnone]
    · rename_i heq
      rw [Key.compare_eq_iff.mp heq, find_cons_self, find_cons_self]
    · rename_i hgt
      have hne : k ≠ k₀ := (Key.Before.ne (Key.compare_gt_iff.mp hgt)).symm
      rw [find_cons_of_ne hne, find_cons_of_ne hne, ih hl]

/-! ### Looking up -/

lemma mem_entries_iff : (k, v) ∈ m.entries ↔ m.get? k = some v :=
  ⟨find_eq_some_of_mem m.sorted, mem_of_find_eq_some⟩

/-- A map has one representation. -/
@[ext] lemma ext (h : ∀ k, m.get? k = m'.get? k) : m = m' := by
  have hmem : ∀ e, e ∈ m.entries ↔ e ∈ m'.entries := fun ⟨k, v⟩ => by
    rw [mem_entries_iff, mem_entries_iff, h]
  obtain ⟨l, hl⟩ := m
  obtain ⟨l', hl'⟩ := m'
  have hp : l.Perm l' := by
    refine (List.perm_ext_iff_of_nodup ?_ ?_).mpr hmem
    · exact hl.imp fun h he => h.ne (congrArg Prod.fst he)
    · exact hl'.imp fun h he => h.ne (congrArg Prod.fst he)
  have : l = l' := hp.eq_of_pairwise (fun a b _ _ h h' => absurd h' h.asymm) hl hl'
  subst this
  rfl

@[simp] lemma get?_empty : (empty : SortedMap K V).get? k = none := rfl

/-! ### After a change -/

@[simp] lemma get?_alter_self (f : Option V → V) : (m.alter k f).get? k = some (f (m.get? k)) :=
  find_alterList_self f m.sorted

lemma get?_alter_of_ne (h : k' ≠ k) (f : Option V → V) : (m.alter k f).get? k' = m.get? k' :=
  find_alterList_of_ne h f m.entries

@[simp] lemma get?_insert_self : (m.insert k v).get? k = some v := get?_alter_self _

lemma get?_insert_of_ne (h : k' ≠ k) : (m.insert k v).get? k' = m.get? k' :=
  get?_alter_of_ne h _

lemma alter_eq_insert (f : Option V → V) : m.alter k f = m.insert k (f (m.get? k)) := by
  ext k' : 1
  by_cases h : k' = k
  · subst h
    simp
  · rw [get?_alter_of_ne h, get?_insert_of_ne h]

/-- Writing what is there changes nothing. -/
lemma insert_of_get? (h : m.get? k = some v) : m.insert k v = m := by
  ext k' : 1
  by_cases hk : k' = k
  · subst hk
    rw [get?_insert_self, h]
  · rw [get?_insert_of_ne hk]

@[simp] lemma insert_insert {w : V} : (m.insert k v).insert k w = m.insert k w := by
  ext k' : 1
  by_cases h : k' = k
  · subst h
    simp
  · simp [get?_insert_of_ne h]

@[simp] lemma get?_filter (p : K → V → Bool) : (m.filter p).get? k = (m.get? k).filter (p k) := by
  ext v
  simp [← mem_entries_iff, filter, Option.filter_eq_some_iff]

@[simp] lemma get?_map (f : K → V → W) : (m.map f).get? k = (m.get? k).map (f k) := by
  ext w
  simp only [← mem_entries_iff, map, List.mem_map, Prod.exists, Prod.mk.injEq,
    Option.map_eq_some_iff]
  constructor
  · rintro ⟨_, v, h, rfl, rfl⟩
    exact ⟨v, h, rfl⟩
  · rintro ⟨v, h, rfl⟩
    exact ⟨k, v, h, rfl, rfl⟩

@[simp] lemma get?_erase_self : (m.erase k).get? k = none := by
  simp [erase]

lemma get?_erase_of_ne (h : k' ≠ k) : (m.erase k).get? k' = m.get? k' := by
  have hp : (compare k k' != .eq) = true := by simpa [Key.compare_eq_iff] using h.symm
  rw [erase, get?_filter]
  cases m.get? k' <;> simp [Option.filter, hp]

/-- Entries folded into a map, each changing what stands under its key. -/
lemma get?_foldl_alter (f : V → Option W → W) (m : SortedMap K W) (n : SortedMap K V) :
    (n.entries.foldl (fun m e => m.alter e.1 (f e.2)) m).get? k =
      (n.get? k).elim (m.get? k) fun v => some (f v (m.get? k)) := by
  obtain ⟨l, hl⟩ := n
  simp only [get?]
  induction l generalizing m with
  | nil => rfl
  | cons e l ih =>
    obtain ⟨k₀, v⟩ := e
    obtain ⟨hlt, hl'⟩ := List.pairwise_cons.mp hl
    rw [List.foldl_cons]
    by_cases hk : k = k₀
    · subst hk
      have hnone : find k l = none := find_eq_none fun e he => Key.Before.ne (hlt e he)
      have := ih (m.alter k (f v)) hl'
      rw [hnone] at this
      rw [find_cons_self]
      exact this.trans (get?_alter_self (f v))
    · have := ih (m.alter k₀ (f v)) hl'
      rw [find_cons_of_ne hk]
      exact this.trans (by rw [← get?, get?_alter_of_ne hk]; rfl)

/-! ### Listing keys and values -/

lemma mem_values : v ∈ m.values ↔ ∃ k, m.get? k = some v := by
  simp only [values, List.mem_map, Prod.exists, exists_eq_right, mem_entries_iff]

lemma mem_keys : k ∈ m.keys ↔ (m.get? k).isSome := by
  simp [keys, mem_entries_iff, Option.isSome_iff_exists]

lemma nodup_keys (m : SortedMap K V) : m.keys.Nodup :=
  List.pairwise_map.mpr (m.sorted.imp Key.Before.ne)

lemma nodup_entries (m : SortedMap K V) : m.entries.Nodup :=
  m.sorted.imp fun h heq => h.ne (congrArg Prod.fst heq)

/-- What is listed for one key is not listed for another. -/
lemma nodup_flatMap_entries {β : Type*} {f : K × V → List β} (hnodup : ∀ e, (f e).Nodup)
    (hdisjoint : ∀ e e' b, b ∈ f e → b ∈ f e' → e.1 = e'.1) : (m.entries.flatMap f).Nodup :=
  List.nodup_flatMap.mpr ⟨fun e _ => hnodup e, m.sorted.imp fun h b hb hb' =>
    h.ne (hdisjoint _ _ b hb hb')⟩

lemma isSome_get?_of_size_eq {m' : SortedMap K W} (hsize : m.size = m'.size)
    (h : ∀ k, (m'.get? k).isSome → (m.get? k).isSome) (k : K) :
    (m.get? k).isSome = (m'.get? k).isSome := by
  have hsub : m'.keys ⊆ m.keys := fun k hk => mem_keys.mpr (h k (mem_keys.mp hk))
  have hlength : m.keys.length ≤ m'.keys.length := by simpa [keys, size] using Nat.le_of_eq hsize
  have hperm := (m'.nodup_keys.subperm hsub).perm_of_length_le hlength
  rw [Bool.eq_iff_iff, ← mem_keys, ← mem_keys, hperm.mem_iff]

/-! ### The map of a list -/

variable {l : List (K × V)}

lemma ofList_append_singleton (l : List (K × V)) (e : K × V) :
    ofList (l ++ [e]) = (ofList l).insert e.1 e.2 := by
  simp [ofList]

lemma mem_of_get?_ofList (h : (ofList l).get? k = some v) : (k, v) ∈ l := by
  induction l using List.reverseRecOn with
  | nil => simp [ofList] at h
  | append_singleton l e ih =>
    rw [ofList_append_singleton] at h
    by_cases hk : k = e.1
    · subst hk
      rw [get?_insert_self] at h
      simp [← Option.some.inj h]
    · rw [get?_insert_of_ne hk] at h
      exact List.mem_append_left _ (ih h)

/-- The map of a list has the keys of the list. -/
lemma isSome_get?_ofList : ((ofList l).get? k).isSome ↔ ∃ v, (k, v) ∈ l := by
  constructor
  · intro h
    obtain ⟨v, hv⟩ := Option.isSome_iff_exists.mp h
    exact ⟨v, mem_of_get?_ofList hv⟩
  · rintro ⟨v, hmem⟩
    induction l using List.reverseRecOn with
    | nil => simp at hmem
    | append_singleton l e ih =>
      rw [ofList_append_singleton]
      by_cases hk : k = e.1
      · subst hk
        simp
      · rw [get?_insert_of_ne hk]
        refine ih ((List.mem_append.mp hmem).resolve_right fun he => hk ?_)
        exact congrArg Prod.fst (List.mem_singleton.mp he)

lemma get?_ofList (h : ∀ e ∈ l, ∀ e' ∈ l, e.1 = e'.1 → e = e') :
    (ofList l).get? k = some v ↔ (k, v) ∈ l := by
  refine ⟨mem_of_get?_ofList, fun hmem => ?_⟩
  obtain ⟨w, hw⟩ := Option.isSome_iff_exists.mp (isSome_get?_ofList.mpr ⟨v, hmem⟩)
  have heq : (k, w) = (k, v) := h _ (mem_of_get?_ofList hw) _ hmem rfl
  rw [hw, (Prod.mk.inj heq).2]

@[simp] lemma ofList_entries (m : SortedMap K V) : ofList m.entries = m := by
  ext k v
  rw [get?_ofList, mem_entries_iff]
  rintro ⟨k, v⟩ he ⟨k', v'⟩ he' rfl
  rw [mem_entries_iff] at he he'
  rw [Option.some.inj (he.symm.trans he')]

end SortedMap

end DeltaRing
