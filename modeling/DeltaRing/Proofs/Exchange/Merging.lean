import DeltaRing.Proofs.Exchange.Schedule
import DeltaRing.Proofs.Replication.History

/-!
What an exchange merges.

Both sides of an exchange come to no other states than by merging deltas that one of them had
stored when it began: whatever a side lists it had stored or has merged, and its batches read as
what it lists. This is so under every schedule, and whether or not the exchange works out.
-/

namespace DeltaRing

/-- Whatever the frame is read as is among the deltas. -/
def Frame.Within {D : Type} [Wire D] (E : Set D) : Frame → Prop
  | .deltas batch => ∀ ds : List D, Wire.decode batch = .ok ds → ∀ δ ∈ ds, δ ∈ E
  | .timestamp _ | .done => True

namespace Exchange

variable {S D T : Type} [CausalTimestamp T D] [DeltaCrdt S D T] [Wire D] [Wire T] {E : Set D}
  {a b : S} {h h' : Half S T} {x y : Duplex S T S T}

/-- Since it was in the state `a`, the side has merged only deltas of the set, and it offers no
others. -/
structure Half.Within (E : Set D) (a : S) (h : Half S T) : Prop where
  merged : ∃ ds, (∀ δ ∈ ds, δ ∈ E) ∧ h.state = (mergeAll a ds).1
  offered : ∀ f, h.offered? = some f → f.Within E

def Half.Channel.Within (E : Set D) (ch : Half.Channel) : Prop :=
  (∀ f ∈ ch.inbox, f.Within E) ∧ ∀ f ∈ ch.outbox, f.Within E

namespace Half

omit [CausalTimestamp T D] in
/-- A side in the same state stays within the deltas if it offers what it offered or no deltas. -/
lemma Within.of_state (hh : h.Within E a) (hstate : h'.state = h.state)
    (hoffered : ∀ f, h'.offered? = some f → h.offered? = some f) : h'.Within E a where
  merged := hstate ▸ hh.merged
  offered f hf := hh.offered f (hoffered f hf)

omit [CausalTimestamp T D] in
lemma Within.afterSending (hh : h.Within E a) : h.afterSending.Within E a := by
  refine hh.of_state (state_afterSending h) fun f hf => ?_
  unfold Half.afterSending at hf
  split at hf
  · simp [offered?] at hf
  · simp [offered?] at hf
  · simp [offered?] at hf
  · exact hf

omit [CausalTimestamp T D] in
lemma Within.afterRefusal (hh : h.Within E a) : h.afterRefusal.Within E a := by
  refine hh.of_state (state_afterRefusal h) fun f hf => ?_
  unfold Half.afterRefusal at hf
  split at hf
  · simp [refuse, offered?] at hf
  · simp [offered?] at hf
  · simp [offered?] at hf
  · exact hf

omit [CausalTimestamp T D] [Wire D] in
lemma offered?_of_running {ts : Payload} {out : Outgoing T} {inc inc' : Incoming} {f : Frame}
    (hphase : h.phase = .running ts out inc) (hphase' : h'.phase = .running ts out inc')
    (hf : h'.offered? = some f) : h.offered? = some f := by
  rw [offered?, hphase'] at hf
  rw [offered?, hphase]
  cases out <;> exact hf

omit [CausalTimestamp T D] in
lemma Within.hearNothing (hh : h.Within E a) : h.hearNothing.Within E a := by
  refine hh.of_state (state_hearNothing h) fun f hf => ?_
  unfold Half.hearNothing at hf
  split at hf
  · simp [refuse, offered?] at hf
  · rename_i hphase
    exact offered?_of_running hphase rfl hf
  · exact hf

omit [CausalTimestamp T D] in
lemma Within.hear (hh : h.Within E a) {f : Frame} (hf : f.Within E) : (h.hear f).Within E a := by
  unfold Half.hear
  split
  · split
    · exact hh.of_state rfl fun f hf => by simp [offered?] at hf
    · exact hh.of_state rfl fun f hf => by simp [offered?] at hf
  · exact hh.of_state rfl fun f hf => by simp [refuse, offered?] at hf
  · rename_i batch hphase
    cases hds : (Wire.decode batch : Except ClusterError (List D)) with
    | error e =>
      simp only [Encoded.merge, hds]
      exact hh.of_state rfl fun f => offered?_of_running hphase rfl
    | ok ds =>
      simp only [Encoded.merge, hds]
      obtain ⟨ds₀, hds₀, hstate⟩ := hh.merged
      refine ⟨⟨ds₀ ++ ds, fun δ hδ => ?_, ?_⟩, fun f hoffer => ?_⟩
      · exact (List.mem_append.mp hδ).elim (hds₀ δ) (hf ds hds δ)
      · change (mergeAll h.state ds).1 = _
        rw [mergeAll_append, ← hstate]
      · exact hh.offered f (offered?_of_running hphase rfl hoffer)
  · rename_i hphase
    exact hh.of_state rfl fun f => offered?_of_running hphase rfl
  · rename_i hphase
    exact hh.of_state rfl fun f => offered?_of_running hphase rfl
  · exact hh

variable [Authored D] [Summary S D] [Listing S] [Historic S]

/-- What a side lists it had stored at the start or has merged since. -/
lemma Within.listed (hh : h.Within E a) (ha : ∀ δ ∈ deltasSince a none, δ ∈ E) {since : T} {δ : D}
    (hδ : δ ∈ deltasSince h.state (some since)) : δ ∈ E := by
  obtain ⟨ds, hds, hstate⟩ := hh.merged
  have hstored := mem_history hδ
  rw [hstate] at hstored
  exact (history_mergeAll hstored).elim (hds δ) (ha δ)

variable [LawfulWire D]

lemma Within.prepare (hE : ∀ δ ∈ E, LawfulWire.Fits δ) (hh : h.Within E a)
    (ha : ∀ δ ∈ deltasSince a none, δ ∈ E) (hprepare : h.prepare? = some h') : h'.Within E a := by
  unfold Half.prepare? at hprepare
  split at hprepare
  · rename_i cursor _ _ _
    cases hprepare
    refine ⟨hh.merged, fun f hf => ?_⟩
    have hbatch : ∀ δ ∈ (nextBatch h.state cursor h.batchSize).1, δ ∈ E := fun δ hδ =>
      hh.listed ha (List.mem_of_mem_take hδ)
    obtain rfl := Option.some.inj hf
    split
    · trivial
    · intro ds hds
      obtain rfl := LawfulWire.eq_of_decode_encode (fun δ hδ => hE δ (hbatch δ hδ)) hds
      exact hbatch
  · cases hprepare

lemma Within.move (hE : ∀ δ ∈ E, LawfulWire.Fits δ) (hh : h.Within E a)
    (ha : ∀ δ ∈ deltasSince a none, δ ∈ E) {ch ch' : Half.Channel} (hch : ch.Within E) {mv : Move}
    (hmove : h.move? ch mv = some (h', ch')) : h'.Within E a ∧ ch'.Within E := by
  rcases Half.move?_cases hmove with ⟨hprepare, rfl⟩ | ⟨f, hoffer, -, rfl, rfl⟩ |
    ⟨f, -, -, rfl, rfl⟩ | ⟨-, f, rest, hinbox, rfl, rfl⟩ | ⟨-, -, -, rfl, rfl⟩
  · exact ⟨hh.prepare hE ha hprepare, hch⟩
  · refine ⟨hh.afterSending, hch.1, fun g hg => ?_⟩
    rcases List.mem_append.mp hg with hg | hg
    · exact hch.2 g hg
    · exact List.mem_singleton.mp hg ▸ hh.offered f hoffer
  · exact ⟨hh.afterRefusal, hch⟩
  · obtain ⟨hf, hrest⟩ := List.forall_mem_cons.mp (hinbox ▸ hch.1)
    exact ⟨hh.hear hf, hrest, hch.2⟩
  · exact ⟨hh.hearNothing, hch⟩

end Half

structure Duplex.Within (E : Set D) (a b : S) (x : Duplex S T S T) : Prop where
  left : x.left.Within E a
  right : x.right.Within E b
  toLeft : ∀ f ∈ x.toLeft, f.Within E
  toRight : ∀ f ∈ x.toRight, f.Within E

omit [CausalTimestamp T D] in
lemma Duplex.Within.swap (hx : x.Within E a b) : x.swap.Within E b a :=
  ⟨hx.right, hx.left, hx.toRight, hx.toLeft⟩

variable [LawfulWire D] [Authored D] [Summary S D] [Listing S] [Historic S]

lemma Duplex.Within.move_left (hE : ∀ δ ∈ E, LawfulWire.Fits δ)
    (ha : ∀ δ ∈ deltasSince a none, δ ∈ E) (hx : x.Within E a b) {mv : Move}
    (hmove : x.move? .left mv = some y) : y.Within E a b := by
  rw [move?_left, Option.map_eq_some_iff] at hmove
  obtain ⟨⟨h, ch⟩, hhalf, rfl⟩ := hmove
  obtain ⟨hleft, hinbox, houtbox⟩ := hx.left.move hE ha ⟨hx.toLeft, hx.toRight⟩ hhalf
  exact ⟨hleft, hx.right, hinbox, houtbox⟩

lemma After.within (hE : ∀ δ ∈ E, LawfulWire.Fits δ) (ha : ∀ δ ∈ deltasSince a none, δ ∈ E)
    (hb : ∀ δ ∈ deltasSince b none, δ ∈ E) (hx : x.Within E a b) {k : Nat} (hy : After x k y) :
    y.Within E a b := by
  induction hy with
  | start => exact hx
  | move side mv _ hmove ih =>
    cases side with
    | left => exact ih.move_left hE ha hmove
    | right =>
      rw [move?_right, Option.map_eq_some_iff] at hmove
      obtain ⟨z, hmove, rfl⟩ := hmove
      exact (ih.swap.move_left hE hb hmove).swap

/-- **An exchange only merges what one of its sides had stored.** -/
theorem merged_of_run (hE : ∀ δ ∈ E, LawfulWire.Fits δ) (ha : ∀ δ ∈ deltasSince a none, δ ∈ E)
    (hb : ∀ δ ∈ deltasSince b none, δ ∈ E) {left right : Half S T} (hleft : left.Within E a)
    (hright : right.Within E b) (capacity : Nat) :
    let x := (Duplex.connect left right capacity).run
    (∃ ds, (∀ δ ∈ ds, δ ∈ E) ∧ x.left.state = (mergeAll a ds).1) ∧
      ∃ ds, (∀ δ ∈ ds, δ ∈ E) ∧ x.right.state = (mergeAll b ds).1 := by
  intro x
  obtain ⟨k, hx, -⟩ := exists_after_runWithin (Duplex.connect left right capacity).moveBound
    (Duplex.connect left right capacity)
  have hend := hx.within hE ha hb ⟨hleft, hright, by simp [Duplex.connect],
    by simp [Duplex.connect]⟩
  exact ⟨hend.left.merged, hend.right.merged⟩

end Exchange

end DeltaRing
