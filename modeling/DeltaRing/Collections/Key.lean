/-!
Keys of sorted collections.

A key type has one comparison that is a total order and calls only equal keys equal, so a
sorted collection has a single list of its members. Records take the order of the tuple of
their fields.
-/

namespace DeltaRing

/-- A type with a total order whose ties are equalities. -/
class Key (α : Type) extends Ord α where
  trans : Std.TransOrd α
  lawful : Std.LawfulEqOrd α

attribute [instance] Key.trans Key.lawful

namespace Key

instance : Key String := ⟨inferInstance, inferInstance⟩
instance : Key Nat := ⟨inferInstance, inferInstance⟩
instance : Key Int := ⟨inferInstance, inferInstance⟩
instance : Key UInt8 := ⟨inferInstance, inferInstance⟩

/-- Pairs are ordered by their first components, then by their second. -/
instance {α β : Type} [Key α] [Key β] : Key (α × β) where
  compare := compareLex (compareOn Prod.fst) (compareOn Prod.snd)
  trans := inferInstanceAs (Std.TransCmp (compareLex (compareOn Prod.fst) (compareOn Prod.snd)))
  lawful := ⟨fun {a b} h => by
    have h : ((compareOn Prod.fst a b).then (compareOn Prod.snd a b)) = .eq := h
    rw [Ordering.then_eq_eq] at h
    exact Prod.ext (Std.LawfulEqOrd.eq_of_compare h.1) (Std.LawfulEqOrd.eq_of_compare h.2)⟩

/-- The order of a record is the order of the tuple of its fields. -/
@[reducible] def onto {α β : Type} [Key β] (fields : α → β)
    (injective : ∀ a b, fields a = fields b → a = b) : Key α where
  compare := compareOn fields
  trans := inferInstanceAs (Std.TransCmp (compareOn fields))
  lawful :=
    { compare_self := (inferInstance : Std.ReflCmp (compareOn fields)).compare_self
      eq_of_compare := fun h => injective _ _ (Std.LawfulEqOrd.eq_of_compare h) }

variable {α : Type} [Key α] {a b c : α}

/-- `a` comes strictly before `b`. -/
def Before (a b : α) : Prop := compare a b = .lt

instance : DecidableRel (Before (α := α)) := fun a b => inferInstanceAs (Decidable (compare a b = .lt))

theorem compare_self (a : α) : compare a a = .eq := Std.ReflCmp.compare_self

theorem compare_eq_iff : compare a b = .eq ↔ a = b :=
  ⟨Std.LawfulEqOrd.eq_of_compare, fun h => by rw [h, compare_self]⟩

theorem compare_gt_iff : compare a b = .gt ↔ Before b a := Std.OrientedCmp.gt_iff_lt

theorem Before.trans (h : Before a b) (h' : Before b c) : Before a c :=
  Std.TransCmp.lt_trans h h'

theorem not_before_self (a : α) : ¬ Before a a := by simp [Before]

theorem Before.ne (h : Before a b) : a ≠ b := by
  rintro rfl
  exact not_before_self _ h

theorem Before.asymm (h : Before a b) : ¬ Before b a := fun h' => not_before_self _ (h.trans h')

end Key

end DeltaRing
