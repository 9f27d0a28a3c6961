import DeltaRing.Proofs.Replication.Growth
import Mathlib.Order.Lattice

/-!
Timestamps in canonical form are lattices.

Joins of contexts are unions, joins of a registry's timestamps are maxima for every key, and joins
of a map's timestamps are joins for every key. So on canonical timestamps they commute, associate,
and are least upper bounds in the order that they give, which is the order that comparisons report.
A join reflects what one of its sides reflects, and nothing else.
-/

namespace DeltaRing

class JoinLaws (T : Type) [Lattice T] [CanonicalForm T] : Prop where
  canonical_bottom : IsCanonical (Lattice.bottom : T)
  canonical_join {a b : T} : IsCanonical a → IsCanonical b → IsCanonical (Lattice.join a b)
  join_comm {a b : T} : IsCanonical a → IsCanonical b → Lattice.join a b = Lattice.join b a
  join_assoc {a b c : T} : IsCanonical a → IsCanonical b → IsCanonical c →
    Lattice.join (Lattice.join a b) c = Lattice.join a (Lattice.join b c)
  bottom_join {a : T} : IsCanonical a → Lattice.join Lattice.bottom a = a

class JoinReflects (T D : Type) [CausalTimestamp T D] : Prop where
  reflects_join_iff {t t' : T} {δ : D} :
    reflects (Lattice.join t t') δ = true ↔ reflects t δ = true ∨ reflects t' δ = true

/-! ### Sets -/

namespace CausalContext

variable {a b c : CausalContext}

lemma merge_comm (ha : a.Canonical) (hb : b.Canonical) : a.merge b = b.merge a :=
  (canonical_merge ha hb).ext (canonical_merge hb ha) fun d _ => by
    rw [contains_merge, contains_merge, or_comm]

lemma merge_assoc (ha : a.Canonical) (hb : b.Canonical) (hc : c.Canonical) :
    (a.merge b).merge c = a.merge (b.merge c) := by
  refine (canonical_merge (canonical_merge ha hb) hc).ext
    (canonical_merge ha (canonical_merge hb hc)) fun d _ => ?_
  simp only [contains_merge, or_assoc]

instance : JoinLaws CausalContext where
  canonical_bottom := canonical_empty
  canonical_join := canonical_merge
  join_comm := merge_comm
  join_assoc := merge_assoc
  bottom_join := empty_merge

instance {α : Type} : JoinReflects CausalContext (OrSetDelta α) := ⟨contains_merge⟩

end CausalContext

/-! ### Registries -/

namespace LwwStamp

variable {a b c : LwwStamp}

def newer (a b : LwwStamp) : LwwStamp := if a.isBelow b then b else a

lemma newer_not_isBelow_iff : (newer a b).isBelow c = false ↔
    a.isBelow c = false ∨ b.isBelow c = false := by
  rw [newer]
  split
  · rename_i hab
    exact ⟨.inr, fun h => h.elim (not_isBelow_trans (isBelow_asymm hab)) id⟩
  · rename_i hab
    refine ⟨.inl, fun h => h.elim id (not_isBelow_trans (by simpa using hab))⟩

/-- A stamp is known by the stamps that it is not below. -/
lemma eq_of_forall_not_isBelow_iff (h : ∀ c, a.isBelow c = false ↔ b.isBelow c = false) : a = b :=
  eq_of_not_isBelow ((h b).mpr isBelow_self) ((h a).mp isBelow_self)

instance : Std.Commutative newer where
  comm a b := eq_of_forall_not_isBelow_iff fun c => by
    rw [newer_not_isBelow_iff, newer_not_isBelow_iff, or_comm]

instance : Std.Associative newer where
  assoc a b c := eq_of_forall_not_isBelow_iff fun d => by
    simp only [newer_not_isBelow_iff, or_assoc]

end LwwStamp

namespace LwwRegistry

variable {K V : Type} [Key K] {t t' : LwwTimestamp K}

lemma timestamp_ext (h : ∀ k, t.stamps.get? k = t'.stamps.get? k) : t = t' :=
  congrArg LwwTimestamp.mk (SortedMap.ext h)

lemma get?_join_eq_merge (k : K) : (Lattice.join t t').stamps.get? k =
    (t.stamps.get? k).merge LwwStamp.newer (t'.stamps.get? k) := by
  rw [get?_join]
  cases t.stamps.get? k <;> cases t'.stamps.get? k <;> rfl

instance : JoinLaws (LwwTimestamp K) where
  canonical_bottom := trivial
  canonical_join _ _ := trivial
  join_comm _ _ := timestamp_ext fun k => by
    simp only [get?_join_eq_merge]
    exact Std.Commutative.comm _ _
  join_assoc _ _ _ := timestamp_ext fun k => by
    simp only [get?_join_eq_merge]
    exact Std.Associative.assoc _ _ _
  bottom_join _ := timestamp_ext fun k => by
    rw [get?_join_eq_merge]
    exact Option.merge_none_left

instance : JoinReflects (LwwTimestamp K) (LwwDelta K V) where
  reflects_join_iff {t t' δ} := by
    simp only [reflects_iff, get?_join_eq_merge]
    cases t.stamps.get? δ.key <;> cases t'.stamps.get? δ.key <;>
      simp [LwwStamp.newer_not_isBelow_iff]

end LwwRegistry

/-! ### Maps -/

namespace OrMap

variable {K T D : Type} [Key K]

lemma get?_join_eq_merge [Lattice T] {t t' : MapTimestamp K T} (k : K) :
    (Lattice.join t t').values.get? k =
      (t.values.get? k).merge Lattice.join (t'.values.get? k) := by
  rw [get?_join]
  cases t.values.get? k <;> cases t'.values.get? k <;> rfl

instance [Lattice T] [CanonicalForm T] [JoinLaws T] : JoinLaws (MapTimestamp K T) where
  canonical_bottom := ⟨CausalContext.canonical_empty, fun k v hv => by cases hv⟩
  canonical_join {a b} ha hb := by
    refine ⟨CausalContext.canonical_merge ha.1 hb.1, fun k v hv => ?_⟩
    have hak := ha.2 k
    have hbk := hb.2 k
    rw [get?_join_eq_merge] at hv
    cases hx : a.values.get? k <;> cases hy : b.values.get? k <;> rw [hx, hy] at hv <;> cases hv
    · exact hbk v hy
    · exact hak v hx
    · exact JoinLaws.canonical_join (hak _ hx) (hbk _ hy)
  join_comm {a b} ha hb := by
    refine timestamp_ext (CausalContext.merge_comm ha.1 hb.1) fun k => ?_
    have hak := ha.2 k
    have hbk := hb.2 k
    simp only [get?_join_eq_merge]
    cases hx : a.values.get? k <;> cases hy : b.values.get? k <;> try rfl
    exact congrArg some (JoinLaws.join_comm (hak _ hx) (hbk _ hy))
  join_assoc {a b c} ha hb hc := by
    refine timestamp_ext (CausalContext.merge_assoc ha.1 hb.1 hc.1) fun k => ?_
    have hak := ha.2 k
    have hbk := hb.2 k
    have hck := hc.2 k
    simp only [get?_join_eq_merge]
    cases hx : a.values.get? k <;> cases hy : b.values.get? k <;> cases hz : c.values.get? k <;>
      try rfl
    exact congrArg some (JoinLaws.join_assoc (hak _ hx) (hbk _ hy) (hck _ hz))
  bottom_join {a} ha := timestamp_ext (CausalContext.empty_merge ha.1) fun k => by
    rw [get?_join_eq_merge]
    exact Option.merge_none_left

instance [CausalTimestamp T D] [JoinReflects T D] :
    JoinReflects (MapTimestamp K T) (OrMapDelta K D) where
  reflects_join_iff {t t' δ} := by
    cases hd : δ.dot? with
    | some d =>
      simp only [OrMapDelta.reflects_of_dot? hd]
      exact CausalContext.contains_merge
    | none =>
      obtain ⟨k, δ, rfl⟩ := OrMapDelta.exists_eq_value hd
      simp only [reflects_value, get?_join_eq_merge]
      cases t.values.get? k <;> cases t'.values.get? k <;>
        simp [JoinReflects.reflects_join_iff]

end OrMap

namespace Family

instance joinLaws : (F : Family) → JoinLaws F.Timestamp
  | orSet _ => inferInstanceAs (JoinLaws CausalContext)
  | registry K _ => inferInstanceAs (JoinLaws (LwwTimestamp K))
  | orMap K value =>
    have := value.joinLaws
    inferInstanceAs (JoinLaws (MapTimestamp K value.Timestamp))

instance joinReflects : (F : Family) → JoinReflects F.Timestamp F.Delta
  | orSet α => inferInstanceAs (JoinReflects CausalContext (OrSetDelta α))
  | registry K V => inferInstanceAs (JoinReflects (LwwTimestamp K) (LwwDelta K V))
  | orMap K value =>
    have := value.joinReflects
    inferInstanceAs (JoinReflects (MapTimestamp K value.Timestamp) (OrMapDelta K value.Delta))

end Family

/-! ### The order that joins give -/

@[ext] structure CanonicalOf (T : Type) [Lattice T] [CanonicalForm T] where
  val : T
  canonical : IsCanonical val

section

variable {T : Type} [Lattice T] [CanonicalForm T] [JoinLaws T]

instance : SemilatticeSup (CanonicalOf T) :=
  let _ : Max (CanonicalOf T) :=
    ⟨fun a b => ⟨Lattice.join a.val b.val, JoinLaws.canonical_join a.canonical b.canonical⟩⟩
  SemilatticeSup.mk' (fun a b => CanonicalOf.ext (JoinLaws.join_comm a.canonical b.canonical))
    (fun a b c => CanonicalOf.ext (JoinLaws.join_assoc a.canonical b.canonical c.canonical))
    fun a => CanonicalOf.ext (CanonicalForm.join_self a.canonical)

variable [DecidableEq T]

lemma CanonicalOf.le_iff {a b : CanonicalOf T} : a ≤ b ↔ Lattice.leq a.val b.val = true :=
  CanonicalOf.ext_iff.trans Lattice.leq_iff.symm

lemma Lattice.compare?_iff {a b : T} (ha : IsCanonical a) (hb : IsCanonical b) :
    (compare? a b = some .eq ↔ a = b) ∧
    (compare? a b = some .lt ↔ leq a b = true ∧ a ≠ b) ∧
    (compare? a b = some .gt ↔ leq b a = true ∧ a ≠ b) ∧
    (compare? a b = none ↔ leq a b = false ∧ leq b a = false) := by
  simp only [← Bool.not_eq_true, leq_iff, JoinLaws.join_comm hb ha, compare?]
  by_cases heq : a = b
  · subst heq
    simp [CanonicalForm.join_self ha]
  · by_cases hja : join a b = a
    · simp [hja, heq]
    · by_cases hjb : join a b = b <;> simp [hja, hjb, heq, Ne.symm heq]

end

/-- **Timestamps are lattices.** On canonical timestamps of any family joins commute, associate and
change nothing where both sides are the same or one is the bottom. What a join reflects is what one
of its sides reflects. To be below is a partial order, in which joins are least upper bounds, and
the comparison reports this order. -/
theorem timestamps_are_lattices (F : Family) [DecidableEq F.Timestamp] {a b c : F.Timestamp}
    (ha : IsCanonical a) (hb : IsCanonical b) (hc : IsCanonical c) :
    (IsCanonical (Lattice.join a b) ∧ Lattice.join a b = Lattice.join b a ∧
      Lattice.join (Lattice.join a b) c = Lattice.join a (Lattice.join b c) ∧
      Lattice.join a a = a ∧ Lattice.join Lattice.bottom a = a ∧
      Lattice.join a Lattice.bottom = a) ∧
    (∀ δ : F.Delta, reflects (Lattice.join a b) δ = true ↔
      reflects a δ = true ∨ reflects b δ = true) ∧
    (Lattice.leq a a = true ∧
      (Lattice.leq a b = true → Lattice.leq b a = true → a = b) ∧
      (Lattice.leq a b = true → Lattice.leq b c = true → Lattice.leq a c = true)) ∧
    (Lattice.leq a (Lattice.join a b) = true ∧ Lattice.leq b (Lattice.join a b) = true ∧
      (Lattice.leq a c = true → Lattice.leq b c = true →
        Lattice.leq (Lattice.join a b) c = true)) ∧
    (Lattice.compare? a b = some .eq ↔ a = b) ∧
    (Lattice.compare? a b = some .lt ↔ Lattice.leq a b = true ∧ a ≠ b) ∧
    (Lattice.compare? a b = some .gt ↔ Lattice.leq b a = true ∧ a ≠ b) ∧
    (Lattice.compare? a b = none ↔ Lattice.leq a b = false ∧ Lattice.leq b a = false) := by
  let x : CanonicalOf F.Timestamp := ⟨a, ha⟩
  let y : CanonicalOf F.Timestamp := ⟨b, hb⟩
  let z : CanonicalOf F.Timestamp := ⟨c, hc⟩
  have hle : ∀ {u v : CanonicalOf F.Timestamp}, u ≤ v ↔ Lattice.leq u.val v.val = true :=
    CanonicalOf.le_iff
  have hbottom := JoinLaws.bottom_join ha
  refine ⟨⟨JoinLaws.canonical_join ha hb, JoinLaws.join_comm ha hb, JoinLaws.join_assoc ha hb hc,
    CanonicalForm.join_self ha, hbottom,
    (JoinLaws.join_comm ha JoinLaws.canonical_bottom).trans hbottom⟩,
    fun δ => JoinReflects.reflects_join_iff, ⟨hle.mp (le_refl x), fun h h' => ?_, fun h h' => ?_⟩,
    ⟨hle.mp (le_sup_left : x ≤ x ⊔ y), hle.mp (le_sup_right : y ≤ x ⊔ y), fun h h' => ?_⟩,
    Lattice.compare?_iff ha hb⟩
  · have hxy : x ≤ y := hle.mpr h
    exact congrArg CanonicalOf.val (hxy.antisymm (hle.mpr h'))
  · have hxy : x ≤ y := hle.mpr h
    have hyz : y ≤ z := hle.mpr h'
    exact hle.mp (hxy.trans hyz)
  · have hxz : x ≤ z := hle.mpr h
    have hyz : y ≤ z := hle.mpr h'
    exact hle.mp (sup_le hxz hyz)

def stampOf (l : List (OrMapDelta Nat (OrSetDelta Nat))) : MapTimestamp Nat CausalContext :=
  timestamp (mergeAll (initial : OrMap Nat (OrSet Nat)) l).1

lemma canonical_stampOf (l : List (OrMapDelta Nat (OrSetDelta Nat))) : IsCanonical (stampOf l) := by
  have hgrowing : Growing (OrMap Nat (OrSet Nat)) := inferInstance
  exact (growsTo_mergeAll (D := OrMapDelta Nat (OrSetDelta Nat))
    hgrowing.canonical_initial).canonical

theorem incomparable_timestamps_meet_above :
    let a := stampOf [.add 1 ⟨"a", 1⟩, .value 1 (.add ⟨"a", 1⟩ 5)]
    let b := stampOf [.value 1 (.add ⟨"b", 2⟩ 6), .remove 2 ⟨"b", 1⟩ .empty]
    let c := stampOf [.value 1 (.add ⟨"b", 2⟩ 6), .remove 2 ⟨"b", 1⟩ .empty,
      .value 1 (.add ⟨"a", 1⟩ 5), .add 1 ⟨"a", 1⟩, .add 3 ⟨"a", 2⟩]
    Lattice.leq a b = false ∧ Lattice.leq b a = false ∧
      Lattice.leq (Lattice.join b a) c = true ∧ Lattice.join a b ≠ c := by
  intro a b c
  have ha : IsCanonical a := canonical_stampOf _
  have hb : IsCanonical b := canonical_stampOf _
  have hc : IsCanonical c := canonical_stampOf _
  obtain ⟨⟨-, hcomm, -⟩, -, -, ⟨-, -, hleast⟩, -, -, -, hnone⟩ :=
    @timestamps_are_lattices (.orMap Nat (.orSet Nat))
      (inferInstanceAs (DecidableEq (MapTimestamp Nat CausalContext))) a b c ha hb hc
  obtain ⟨hab, hba⟩ := hnone.mp (by decide +kernel)
  refine ⟨hab, hba, ?_, by decide +kernel⟩
  exact hcomm ▸ hleast (by decide +kernel) (by decide +kernel)

end DeltaRing
