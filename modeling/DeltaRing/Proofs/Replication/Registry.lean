import DeltaRing.Registry
import DeltaRing.Proofs.Collections.SortedMap
import DeltaRing.Proofs.Replication.Convergent

/-!
Last-writer-wins registries converge.

No two writes of a key have the same stamp, for a replica turns down a write that does not beat its
own last one. So the newest write of every key is one delta, and it is what the registry keeps.
-/

namespace DeltaRing

variable {K V : Type}

namespace LwwStamp

variable {a b c : LwwStamp}

lemma isBelow_iff : a.isBelow b = true ↔ Key.Before a b := by
  simp [isBelow, Key.Before]

lemma isBelow_eq_false_iff : a.isBelow b = false ↔ ¬ Key.Before a b := by
  rw [← isBelow_iff, Bool.not_eq_true]

lemma isBelow_self : a.isBelow a = false := isBelow_eq_false_iff.mpr (Key.not_before_self a)

lemma isBelow_asymm (h : a.isBelow b = true) : b.isBelow a = false :=
  isBelow_eq_false_iff.mpr (Key.Before.asymm (isBelow_iff.mp h))

lemma eq_of_not_isBelow (h : a.isBelow b = false) (h' : b.isBelow a = false) : a = b := by
  rw [isBelow_eq_false_iff] at h h'
  rw [← Key.compare_gt_iff] at h'
  refine Key.compare_eq_iff.mp ?_
  cases hc : compare a b with
  | lt => exact absurd hc h
  | eq => rfl
  | gt => exact absurd hc h'

lemma isBelow_of_ne (hne : a ≠ b) (h : b.isBelow a = false) : a.isBelow b = true := by
  by_contra hab
  exact hne (eq_of_not_isBelow (Bool.eq_false_iff.mpr hab) h)

lemma not_isBelow_trans (h : a.isBelow b = false) (h' : b.isBelow c = false) :
    a.isBelow c = false := by
  rw [isBelow_eq_false_iff] at h h' ⊢
  intro hac
  by_cases hab : a = b
  · exact h' (hab ▸ hac)
  · have hba : Key.Before b a := by
      rw [← Key.compare_gt_iff]
      cases hc : compare a b with
      | lt => exact absurd hc h
      | eq => exact absurd (Key.compare_eq_iff.mp hc) hab
      | gt => rfl
    exact h' (hba.trans hac)

def newerOf (b : LwwStamp) : Option LwwStamp → LwwStamp
  | some a => if a.isBelow b then b else a
  | none => b

lemma newerOf_not_isBelow (h : a.isBelow c = false) : (b.newerOf (some a)).isBelow c = false := by
  rw [newerOf]
  split
  · rename_i hab
    exact not_isBelow_trans (isBelow_asymm hab) h
  · exact h

end LwwStamp

namespace LwwDelta

variable {E X Y : Set (LwwDelta K V)} {δ : LwwDelta K V} {k : K} {e e' : LwwEntry V}

def Consistent (E : Set (LwwDelta K V)) : Prop :=
  ∀ δ ∈ E, ∀ ε ∈ E, δ.key = ε.key → δ.stamp = ε.stamp → δ = ε

instance : Authored (LwwDelta K V) where
  author δ := δ.stamp.actor
  Coherent := Consistent

@[simp] lemma key_ofEntry : (ofEntry k e).key = k := by
  unfold ofEntry
  split <;> rfl

@[simp] lemma stamp_ofEntry : (ofEntry k e).stamp = e.stamp := by
  unfold ofEntry
  split <;> rfl

@[simp] lemma entry_ofEntry : (ofEntry k e).entry = e := by
  obtain ⟨v, t⟩ := e
  cases v <;> rfl

@[simp] lemma stamp_entry : δ.entry.stamp = δ.stamp := by cases δ <;> rfl

@[simp] lemma ofEntry_entry : ofEntry δ.key δ.entry = δ := by cases δ <;> rfl

lemma key_delta (op : LwwOperation K V) (a : Actor) : (op.delta a).key = op.key := by
  cases op <;> rfl

lemma ofEntry_inj (h : ofEntry k e = ofEntry k e') : e = e' := by
  simpa using congrArg entry h

/-- No write of the key among the deltas beats the stamp, which is that of one of them. -/
def Newest (X : Set (LwwDelta K V)) (k : K) (t : LwwStamp) : Prop :=
  (∃ δ ∈ X, δ.key = k ∧ δ.stamp = t) ∧ ∀ δ ∈ X, δ.key = k → t.isBelow δ.stamp = false

def Wins (X : Set (LwwDelta K V)) (δ : LwwDelta K V) : Prop :=
  δ ∈ X ∧ ∀ ε ∈ X, ε.key = δ.key → ε = δ ∨ ε.stamp.isBelow δ.stamp = true

lemma Newest.union_left {t t' : LwwStamp} (h : Newest X k t) (h' : Newest Y k t')
    (hle : t.isBelow t' = false) : Newest (X ∪ Y) k t := by
  obtain ⟨⟨δ, hδ, hkey⟩, hmax⟩ := h
  refine ⟨⟨δ, .inl hδ, hkey⟩, ?_⟩
  rintro ε (hε | hε) hk
  · exact hmax ε hε hk
  · exact LwwStamp.not_isBelow_trans hle (h'.2 ε hε hk)

lemma Newest.union_of_forall_ne {t : LwwStamp} (h : Newest X k t) (hY : ∀ δ ∈ Y, δ.key ≠ k) :
    Newest (X ∪ Y) k t := by
  obtain ⟨⟨δ, hδ, hkey⟩, hmax⟩ := h
  refine ⟨⟨δ, .inl hδ, hkey⟩, ?_⟩
  rintro ε (hε | hε) hk
  · exact hmax ε hε hk
  · exact absurd hk (hY ε hε)

end LwwDelta

open LwwDelta

namespace LwwRegistry

variable [Key K] {E X Y : Set (LwwDelta K V)} {r r' u : LwwRegistry K V} {k : K}
  {e : LwwEntry V} {δ : LwwDelta K V}

/-- The registry keeps the newest write of every key. -/
structure IsSummary (r : LwwRegistry K V) (X : Set (LwwDelta K V)) : Prop where
  mem : ∀ k e, r.entries.get? k = some e → ofEntry k e ∈ X
  newest : ∀ δ ∈ X, ∃ e, r.entries.get? δ.key = some e ∧ e.stamp.isBelow δ.stamp = false

instance : Summary (LwwRegistry K V) (LwwDelta K V) := ⟨IsSummary⟩

lemma get?_timestamp : (timestamp r).stamps.get? k = (r.entries.get? k).map LwwEntry.stamp :=
  SortedMap.get?_map _

lemma reflects_iff {t : LwwTimestamp K} : reflects t δ = true ↔
    ∃ seen, t.stamps.get? δ.key = some seen ∧ seen.isBelow δ.stamp = false := by
  change (t.stamps.get? δ.key).any _ = true ↔ _
  cases t.stamps.get? δ.key <;> simp

lemma reflects_timestamp_iff : reflects (timestamp r) δ = true ↔
    ∃ e, r.entries.get? δ.key = some e ∧ e.stamp.isBelow δ.stamp = false := by
  change ((timestamp r).stamps.get? δ.key).any _ = true ↔ _
  rw [get?_timestamp]
  cases r.entries.get? δ.key <;> simp

lemma isSome_blocking : (r.blocking δ.key δ.stamp).isSome = reflects (timestamp r) δ := by
  rw [Bool.eq_iff_iff, reflects_timestamp_iff, blocking]
  cases r.entries.get? δ.key <;> simp [Option.filter]

/-- The newest writes of a key on two sides, neither older than the other, are one. -/
lemma IsSummary.entry_eq (hE : Consistent E) (hX : X ⊆ E) (hY : Y ⊆ E) (h : r.IsSummary X)
    (h' : r'.IsSummary Y) {e' : LwwEntry V} (he : r.entries.get? k = some e)
    (he' : r'.entries.get? k = some e') (hle : e.stamp.isBelow e'.stamp = false)
    (hle' : e'.stamp.isBelow e.stamp = false) : e = e' := by
  refine ofEntry_inj (hE _ (hX (h.mem k e he)) _ (hY (h'.mem k e' he')) (by simp) ?_)
  simpa using LwwStamp.eq_of_not_isBelow hle hle'

/-- A write merged on the other side is beaten here. -/
lemma IsSummary.newest_of_get? (h : r.IsSummary X) (he : ofEntry k e ∈ X) :
    ∃ e', r.entries.get? k = some e' ∧ e'.stamp.isBelow e.stamp = false := by
  simpa using h.newest _ he

lemma IsSummary.eq (hE : Consistent E) (hX : X ⊆ E) (h : r.IsSummary X) (h' : r'.IsSummary X) :
    r = r' := by
  have hentries : r.entries = r'.entries := by
    ext k : 1
    cases hk : r.entries.get? k with
    | none =>
      cases hk' : r'.entries.get? k with
      | none => rfl
      | some e' =>
        obtain ⟨e, he, -⟩ := h.newest_of_get? (h'.mem k e' hk')
        rw [hk] at he
        cases he
    | some e =>
      obtain ⟨e', he', hle'⟩ := h'.newest_of_get? (h.mem k e hk)
      obtain ⟨e₁, he₁, hle⟩ := h.newest_of_get? (h'.mem k e' he')
      rw [hk, Option.some.injEq] at he₁
      subst he₁
      rw [he', h.entry_eq hE hX hX h' hk he' hle hle']
  obtain ⟨_⟩ := r
  obtain ⟨_⟩ := r'
  simp only at hentries
  rw [hentries]

lemma IsSummary.get?_eq_some_iff (hE : Consistent E) (hX : X ⊆ E) (h : r.IsSummary X) :
    r.entries.get? k = some e ↔ Wins X (ofEntry k e) := by
  constructor
  · intro hk
    refine ⟨h.mem k e hk, fun ε hε hkey => ?_⟩
    rw [key_ofEntry] at hkey
    by_cases heq : ε = ofEntry k e
    · exact .inl heq
    · -- two writes of the key differ in their stamps, and the registry keeps the newest
      obtain ⟨e', he', hle⟩ := h.newest ε hε
      rw [hkey, hk, Option.some.injEq] at he'
      subst he'
      have hne : ε.stamp ≠ e.stamp := fun hs =>
        heq (hE ε (hX hε) _ (hX (h.mem k e hk)) (by simpa using hkey) (by simpa using hs))
      rw [stamp_ofEntry]
      exact .inr (LwwStamp.isBelow_of_ne hne hle)
  · rintro ⟨hmem, hwins⟩
    obtain ⟨e', he', hle⟩ := h.newest_of_get? hmem
    rcases hwins _ (h.mem k e' he') (by simp) with heq | hbelow
    · rwa [ofEntry_inj heq] at he'
    · rw [stamp_ofEntry, stamp_ofEntry, hle] at hbelow
      cases hbelow

lemma IsSummary.get?_eq_none_iff (h : r.IsSummary X) :
    r.entries.get? k = none ↔ ∀ δ ∈ X, δ.key ≠ k := by
  constructor
  · rintro hnone δ hδ rfl
    obtain ⟨e, he, -⟩ := h.newest δ hδ
    rw [hnone] at he
    cases he
  · intro hX
    cases hk : r.entries.get? k with
    | none => rfl
    | some e => exact absurd (by simp) (hX _ (h.mem k e hk))

lemma isSummary_empty : (empty : LwwRegistry K V).IsSummary ∅ where
  mem k e h := by simp [empty] at h
  newest δ h := absurd h (Set.notMem_empty δ)

/-! ### Merging -/

lemma merge_of_blocking (h : reflects (timestamp r) δ = true) : r.merge δ = (r, .unchanged) := by
  rw [← isSome_blocking, Option.isSome_iff_exists] at h
  obtain ⟨e, he⟩ := h
  rw [merge, he]

lemma merge_of_not_blocking (h : reflects (timestamp r) δ = false) :
    r.merge δ = (⟨r.entries.insert δ.key δ.entry⟩, .updated) := by
  rw [← isSome_blocking, Option.isSome_eq_false_iff, Option.isNone_iff_eq_none] at h
  rw [merge, h]

lemma merge_of_get?_eq_none (h : r.entries.get? δ.key = none) :
    r.merge δ = (⟨r.entries.insert δ.key δ.entry⟩, .updated) := by
  refine merge_of_not_blocking ?_
  change ((timestamp r).stamps.get? δ.key).any _ = false
  rw [get?_timestamp, h]
  rfl

lemma IsSummary.merge (h : r.IsSummary X) : (r.merge δ).1.IsSummary (insert δ X) := by
  cases hb : reflects (timestamp r) δ with
  | true =>
    rw [merge_of_blocking hb]
    refine ⟨fun k e he => .inr (h.mem k e he), ?_⟩
    rintro ε (rfl | hε)
    · exact reflects_timestamp_iff.mp hb
    · exact h.newest ε hε
  | false =>
    rw [merge_of_not_blocking hb]
    constructor
    · intro k e he
      by_cases hk : k = δ.key
      · subst hk
        rw [SortedMap.get?_insert_self, Option.some.injEq] at he
        exact .inl (by rw [← he, ofEntry_entry])
      · rw [SortedMap.get?_insert_of_ne hk] at he
        exact .inr (h.mem k e he)
    · intro ε hε
      by_cases hk : ε.key = δ.key
      · refine ⟨δ.entry, by rw [hk, SortedMap.get?_insert_self], ?_⟩
        rcases hε with rfl | hε
        · rw [stamp_entry]
          exact LwwStamp.isBelow_self
        · -- the write kept so far beats this one, and the new one beats the write kept so far
          obtain ⟨e, he, hle⟩ := h.newest ε hε
          rw [← Bool.not_eq_true, reflects_timestamp_iff, ← hk] at hb
          have hnew : e.stamp.isBelow δ.stamp = true := by
            by_contra hnot
            exact hb ⟨e, he, by simpa using hnot⟩
          rw [stamp_entry]
          exact LwwStamp.not_isBelow_trans (LwwStamp.isBelow_asymm hnew) hle
      · rcases hε with rfl | hε
        · exact absurd rfl hk
        · obtain ⟨e, he, hle⟩ := h.newest ε hε
          exact ⟨e, by rw [SortedMap.get?_insert_of_ne hk, he], hle⟩

/-! ### Operations -/

/-- A write that takes effect is the first with its stamp. -/
lemma IsSummary.handsOut_write (hE : Consistent E) (h : r.IsSummary X)
    (hown : ∀ ε ∈ E, author ε = author δ → ε ∈ X) (hb : reflects (timestamp r) δ = false) :
    HandsOut E (author δ) r (r.merge δ).1 [δ] := by
  have hfirst : ∀ ε ∈ E, ε.key = δ.key → ε.stamp ≠ δ.stamp := by
    intro ε hε hk hs
    have := h.newest ε (hown ε hε (congrArg LwwStamp.actor hs))
    rw [hk, hs, ← reflects_timestamp_iff, hb] at this
    cases this
  refine HandsOut.one rfl ?_ rfl fun hmem => hfirst δ hmem rfl rfl
  rintro ε (hε | rfl) ζ (hζ | rfl) hk hs
  · exact hE ε hε ζ hζ hk hs
  · exact absurd hs (hfirst ε hε hk)
  · exact absurd hs.symm (hfirst ζ hζ hk.symm)
  · rfl

variable {a : Actor} {op : LwwOperation K V}

lemma apply_of_reflects (h : reflects (timestamp r) (op.delta a) = true) :
    ∃ output, Operable.apply r a op = (r, output, []) := by
  rw [← isSome_blocking, Option.isSome_iff_exists] at h
  obtain ⟨e, he⟩ := h
  simp [Operable.apply, apply, write, he]

lemma apply_of_not_reflects (h : reflects (timestamp r) (op.delta a) = false) :
    Operable.apply r a op = ((r.merge (op.delta a)).1, .applied, [op.delta a]) := by
  rw [merge_of_not_blocking h]
  rw [← isSome_blocking, Option.isSome_eq_false_iff, Option.isNone_iff_eq_none] at h
  simp [Operable.apply, apply, write, h]

/-- A rejected write leaves the registry alone and tells which write of the key it met, and a write
that takes effect beats all writes of the key. -/
lemma IsSummary.apply_cases (hE : Consistent E) (hX : X ⊆ E) (h : r.IsSummary X) (a : Actor)
    (op : LwwOperation K V) :
    (∃ met, Operable.apply r a op = (r, .conflict met, []) ∧
      Wins X (ofEntry op.key ⟨met.winner, met.stamp⟩) ∧
      met.stamp.isBelow (op.delta a).stamp = false) ∨
    (Operable.apply r a op).2 = (.applied, [op.delta a]) ∧
      ∀ δ ∈ X, δ.key = op.key → δ.stamp.isBelow (op.delta a).stamp = true := by
  cases hb : r.blocking (op.delta a).key (op.delta a).stamp with
  | some e =>
    have he := hb
    rw [blocking, Option.filter_eq_some_iff, key_delta] at he
    refine .inl ⟨⟨e.value, e.stamp⟩, ?_, (h.get?_eq_some_iff hE hX).mp he.1, by simpa using he.2⟩
    simp [Operable.apply, apply, write, hb]
  | none =>
    refine .inr ⟨?_, fun δ hδ hk => ?_⟩
    · simp [Operable.apply, apply, write, hb]
    · obtain ⟨e, he, hle⟩ := h.newest δ hδ
      have hnew : ¬ reflects (timestamp r) (op.delta a) = true := by
        rw [← isSome_blocking, hb]
        exact Bool.false_ne_true
      rw [reflects_timestamp_iff, key_delta, ← hk] at hnew
      by_contra hbelow
      exact hnew ⟨e, he, LwwStamp.not_isBelow_trans hle (by simpa using hbelow)⟩

lemma IsSummary.handsOut_apply (hE : Consistent E) (h : r.IsSummary X)
    (hown : ∀ ε ∈ E, author ε = a → ε ∈ X) :
    HandsOut E a r (Operable.apply r a op).1 (Operable.apply r a op).2.2 := by
  have ha : author (op.delta a) = a := by cases op <;> rfl
  cases hb : reflects (timestamp r) (op.delta a) with
  | true =>
    obtain ⟨output, happly⟩ := apply_of_reflects hb
    rw [happly]
    exact HandsOut.nothing hE
  | false =>
    rw [apply_of_not_reflects hb]
    have := h.handsOut_write (δ := op.delta a) hE (by rwa [ha]) hb
    rwa [ha] at this

/-! ### Listing what another lacks -/

lemma mem_deltasSince {since : Option (LwwTimestamp K)} : δ ∈ r.deltasSince since ↔
    ∃ k e, r.entries.get? k = some e ∧ δ = ofEntry k e ∧ ∀ t ∈ since, reflects t δ = false := by
  have hunseen : ∀ k (e : LwwEntry V),
      ((since.bind fun t => t.stamps.get? k).all fun stamp => stamp.isBelow e.stamp) = true ↔
        ∀ t ∈ since, reflects t (ofEntry k e) = false := by
    intro k e
    cases since with
    | none => simp
    | some t =>
      have : reflects t (ofEntry k e) =
          (t.stamps.get? k).any fun seen => !seen.isBelow e.stamp := by
        simp [reflects]
      simp only [Option.bind_some, Option.mem_some_iff, forall_eq', this]
      cases t.stamps.get? k <;> simp
  unfold deltasSince
  simp only [List.mem_filterMap, Prod.exists, hunseen, Option.ite_none_right_eq_some,
    Option.some.injEq, SortedMap.mem_entries_iff]
  constructor
  · rintro ⟨k, e, he, hs, rfl⟩
    exact ⟨k, e, he, rfl, hs⟩
  · rintro ⟨k, e, he, rfl, hs⟩
    exact ⟨k, e, he, hs, rfl⟩

lemma reflects_of_le {ε : LwwDelta K V} (hk : ε.key = δ.key) (hle : ε.stamp.isBelow δ.stamp = false)
    (h : reflects (timestamp r) ε = true) : reflects (timestamp r) δ = true := by
  rw [reflects_timestamp_iff] at h ⊢
  obtain ⟨e, he, hle'⟩ := h
  exact ⟨e, hk ▸ he, LwwStamp.not_isBelow_trans hle' hle⟩

lemma IsSummary.reflects_of_deltasSince (hX : X ⊆ E) (h : r.IsSummary X) (hu : u.IsSummary Y)
    {since : Option (LwwTimestamp K)}
    (hsince : ∀ t ∈ since, ∀ δ ∈ E, reflects t δ = true → reflects (timestamp u) δ = true)
    (hlisted : ∀ δ ∈ r.deltasSince since, δ ∈ Y) (hδ : δ ∈ X) :
    reflects (timestamp u) δ = true := by
  obtain ⟨e, he, hle⟩ := h.newest δ hδ
  refine reflects_of_le (ε := ofEntry δ.key e) (by simp) (by simpa using hle) ?_
  by_cases hseen : ∀ t ∈ since, reflects t (ofEntry δ.key e) = false
  · have hmem := hlisted _ (mem_deltasSince.mpr ⟨δ.key, e, he, rfl, hseen⟩)
    exact reflects_timestamp_iff.mpr (hu.newest _ hmem)
  · push Not at hseen
    obtain ⟨t, ht, hte⟩ := hseen
    exact hsince t ht _ (hX (h.mem _ _ he)) (by simpa using hte)

/-! ### Joining timestamps -/

lemma IsSummary.newest_iff (h : r.IsSummary X) {t : LwwStamp} :
    (timestamp r).stamps.get? k = some t ↔ Newest X k t := by
  rw [get?_timestamp, Option.map_eq_some_iff]
  constructor
  · rintro ⟨e, he, rfl⟩
    refine ⟨⟨_, h.mem k e he, by simp, by simp⟩, ?_⟩
    rintro δ hδ rfl
    obtain ⟨e', he', hle⟩ := h.newest δ hδ
    rw [he, Option.some.injEq] at he'
    rwa [he']
  · rintro ⟨⟨δ, hδ, rfl, rfl⟩, hmax⟩
    obtain ⟨e, he, hle⟩ := h.newest δ hδ
    refine ⟨e, he, LwwStamp.eq_of_not_isBelow hle ?_⟩
    simpa using hmax _ (h.mem _ _ he) (by simp)

lemma IsSummary.get?_timestamp_eq_none_iff (h : r.IsSummary X) :
    (timestamp r).stamps.get? k = none ↔ ∀ δ ∈ X, δ.key ≠ k := by
  rw [get?_timestamp, Option.map_eq_none_iff, h.get?_eq_none_iff]

lemma get?_join {t t' : LwwTimestamp K} : (Lattice.join t t').stamps.get? k =
    (t'.stamps.get? k).elim (t.stamps.get? k) fun b => some (b.newerOf (t.stamps.get? k)) := by
  have hfold : ∀ (l : List (K × LwwStamp)) (t : LwwTimestamp K),
      (l.foldl (fun t e => t.advance e.1 e.2) t).stamps =
        l.foldl (fun stamps e => stamps.alter e.1 e.2.newerOf) t.stamps := by
    intro l
    induction l with
    | nil => exact fun _ => rfl
    | cons e l ih => exact fun t => ih _
  have hjoin : (Lattice.join t t').stamps =
      t'.stamps.entries.foldl (fun stamps e => stamps.alter e.1 e.2.newerOf) t.stamps :=
    hfold t'.stamps.entries t
  rw [hjoin]
  exact SortedMap.get?_foldl_alter LwwStamp.newerOf t.stamps t'.stamps

lemma IsSummary.timestamp_union (h : r.IsSummary X) (h' : r'.IsSummary Y)
    (hu : u.IsSummary (X ∪ Y)) : timestamp u = Lattice.join (timestamp r) (timestamp r') := by
  have hstamps : (timestamp u).stamps = (Lattice.join (timestamp r) (timestamp r')).stamps := by
    ext k : 1
    rw [get?_join]
    cases ht' : (timestamp r').stamps.get? k with
    | none =>
      have hY := h'.get?_timestamp_eq_none_iff.mp ht'
      cases ht : (timestamp r).stamps.get? k with
      | none =>
        have hX := h.get?_timestamp_eq_none_iff.mp ht
        exact hu.get?_timestamp_eq_none_iff.mpr fun δ hδ => hδ.elim (hX δ) (hY δ)
      | some a => exact hu.newest_iff.mpr ((h.newest_iff.mp ht).union_of_forall_ne hY)
    | some b =>
      have hb := h'.newest_iff.mp ht'
      refine hu.newest_iff.mpr ?_
      cases ht : (timestamp r).stamps.get? k with
      | none =>
        have hX := h.get?_timestamp_eq_none_iff.mp ht
        exact Set.union_comm Y X ▸ hb.union_of_forall_ne hX
      | some a =>
        have ha := h.newest_iff.mp ht
        rw [LwwStamp.newerOf]
        split
        · rename_i hab
          exact Set.union_comm Y X ▸ hb.union_left ha (LwwStamp.isBelow_asymm hab)
        · rename_i hab
          exact ha.union_left hb (by simpa using hab)
  cases htu : timestamp u
  cases htj : Lattice.join (timestamp r) (timestamp r')
  rw [htu, htj] at hstamps
  simp only at hstamps
  rw [hstamps]

/-! ### The laws -/

instance : Convergent (LwwRegistry K V) where
  coherent_empty _ h := absurd h (Set.notMem_empty _)
  summarizes_initial := isSummary_empty
  summarizes_unique hE hX h h' := IsSummary.eq hE hX h h'
  summarizes_merge _ _ _ h := IsSummary.merge h
  merge_of_reflects h := merge_of_blocking h
  reflects_of_mem _ _ h hδ := reflects_timestamp_iff.mpr (IsSummary.newest h _ hδ)
  not_reflects_initial _ _ := rfl
  mem_of_mem_deltasSince h hδ := by
    obtain ⟨k, e, he, rfl, -⟩ := mem_deltasSince.mp hδ
    exact IsSummary.mem h k e he
  reflects_of_deltasSince _ hX _ h hu hsince hlisted hδ :=
    IsSummary.reflects_of_deltasSince hX h hu hsince hlisted hδ
  timestamp_union _ _ _ h h' hu := IsSummary.timestamp_union h h' hu

instance : HandsOutCoherently (LwwRegistry K V) where
  handsOut_apply hE _ h hown := IsSummary.handsOut_apply hE h hown

end LwwRegistry

end DeltaRing
