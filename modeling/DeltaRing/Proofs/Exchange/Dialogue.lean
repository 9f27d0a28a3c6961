import DeltaRing.Proofs.Exchange.Grammar
import DeltaRing.Proofs.Wire.Replicated
import Mathlib.Data.Prod.Lex
import Mathlib.Logic.Relation
import Mathlib.Order.WellFounded

/-!
A side and a peer that may send anything.

The peer sends some frames, in whatever order and with whatever in them, and then no more; all along
it reads what it is sent. Neither the schedule nor what the side sends itself makes a difference to
what the side makes of the frames. Every schedule comes to an end, although a batch of the peer can
add to what the side has to send: then there are fewer frames to come.
-/

namespace DeltaRing.Exchange

structure Dialogue (S T : Type) where
  half : Half S T
  /-- The frames that have come to the side. -/
  inbox : List Frame
  /-- The frames that the peer has yet to send. -/
  unsent : List Frame
  /-- The frames that have gone from the side. -/
  outbox : List Frame
  /-- The peer will send no more. -/
  closed : Bool
  /-- How many frames the inbox holds. -/
  room : Nat
  /-- How many frames the outbox holds. -/
  capacity : Nat

namespace Dialogue

variable {S D T : Type}

/-- A queue has room for one frame at least. -/
def start (s : S) (batchSize : Nat) (frames : List Frame) (room capacity : Nat) : Dialogue S T :=
  ⟨.start s batchSize, [], frames, [], false, max room 1, max capacity 1⟩

def channel (x : Dialogue S T) : Half.Channel := ⟨x.inbox, x.outbox, x.capacity, !x.closed, true⟩

def coming (x : Dialogue S T) : List Frame := x.inbox ++ x.unsent

variable [CausalTimestamp T D] [DeltaCrdt S D T] [Wire D] [Wire T]

inductive Step (x : Dialogue S T) : Dialogue S T → Prop
  | move {m : Move} {h : Half S T} {ch : Half.Channel} : x.half.move? x.channel m = some (h, ch) →
    Step x { x with half := h, inbox := ch.inbox, outbox := ch.outbox }
  | send {f : Frame} {rest : List Frame} : x.unsent = f :: rest → x.inbox.length < x.room →
    Step x { x with inbox := x.inbox ++ [f], unsent := rest }
  | close : x.unsent = [] → x.closed = false → Step x { x with closed := true }
  | read {f : Frame} {rest : List Frame} : x.outbox = f :: rest → Step x { x with outbox := rest }

variable {x y z : Dialogue S T}

/-- The side makes a batch, sends a frame, reads one or learns that none will come; or the peer does
something, and the side does not see it yet. -/
lemma Step.cases (hstep : Step x y) :
    (∃ h, x.half.prepare? = some h ∧ y = { x with half := h }) ∨
    (∃ f, x.half.offered? = some f ∧
      y = { x with half := x.half.afterSending, outbox := x.outbox ++ [f] }) ∨
    (x.half.isWaiting = true ∧ ∃ f rest, x.inbox = f :: rest ∧
      y = { x with half := x.half.hear f, inbox := rest }) ∨
    (x.half.isWaiting = true ∧ x.inbox = [] ∧ x.closed = true ∧
      y = { x with half := x.half.hearNothing }) ∨
    (∃ f rest, x.unsent = f :: rest ∧ y = { x with inbox := x.inbox ++ [f], unsent := rest }) ∨
    (x.unsent = [] ∧ x.closed = false ∧ y = { x with closed := true }) ∨
    ∃ f rest, x.outbox = f :: rest ∧ y = { x with outbox := rest } := by
  cases hstep with
  | move hmove =>
    rcases Half.move?_cases hmove with ⟨hprepare, rfl⟩ | ⟨f, hoffer, -, rfl, rfl⟩ |
      ⟨f, -, hdeaf, -⟩ | ⟨hwaiting, f, rest, hinbox, rfl, rfl⟩ |
      ⟨hwaiting, hempty, hsilent, rfl, rfl⟩
    · exact .inl ⟨_, hprepare, rfl⟩
    · exact .inr (.inl ⟨f, hoffer, rfl⟩)
    · cases hdeaf
    · exact .inr (.inr (.inl ⟨hwaiting, f, rest, hinbox, rfl⟩))
    · have hclosed : x.closed = true := by simpa [channel] using hsilent
      exact .inr (.inr (.inr (.inl ⟨hwaiting, hempty, hclosed, rfl⟩)))
  | send hunsent _ => exact .inr (.inr (.inr (.inr (.inl ⟨_, _, hunsent, rfl⟩))))
  | close hunsent hopen => exact .inr (.inr (.inr (.inr (.inr (.inl ⟨hunsent, hopen, rfl⟩)))))
  | read houtbox => exact .inr (.inr (.inr (.inr (.inr (.inr ⟨_, _, houtbox, rfl⟩)))))

/-! ### Every schedule ends -/

/-- Frames to come weigh most, for they can add to what the side has to send. -/
def potential (x : Dialogue S T) : ℕ ×ₗ ℕ ×ₗ ℕ :=
  toLex (2 * x.unsent.length + x.inbox.length + x.half.phase.rank + (!x.closed).toNat,
    toLex (x.half.backlog, x.outbox.length))

lemma Step.potential_lt [Authored D] [Summary S D] [Listing S] (hstep : Step x y) :
    y.potential < x.potential := by
  simp only [potential, Prod.Lex.toLex_lt_toLex]
  rcases hstep.cases with ⟨h, hprepare, rfl⟩ | ⟨f, hoffer, rfl⟩ | ⟨hwaiting, f, rest, hinbox, rfl⟩ |
    ⟨hwaiting, -, -, rfl⟩ | ⟨f, rest, hunsent, rfl⟩ | ⟨-, hopen, rfl⟩ | ⟨f, rest, houtbox, rfl⟩
  · obtain ⟨hrank, hlt⟩ := backlog_prepare_lt hprepare
    exact .inr ⟨by rw [hrank], .inl hlt⟩
  · rcases rank_afterSending_lt hoffer with hlt | ⟨hrank, hlt⟩
    · exact .inl (by simp only; omega)
    · exact .inr ⟨by simp only; omega, .inl hlt⟩
  · have hle := rank_hear_le hwaiting f
    exact .inl (by simp only [hinbox, List.length_cons]; omega)
  · have hlt := rank_hearNothing_lt hwaiting
    exact .inl (by simp only; omega)
  · refine .inl ?_
    simp only [hunsent, List.length_append, List.length_cons, List.length_nil]
    omega
  · exact .inl (by simp only [hopen, Bool.not_true, Bool.not_false, Bool.toNat_true,
      Bool.toNat_false]; omega)
  · exact .inr ⟨rfl, .inr ⟨rfl, by simp only [houtbox, List.length_cons]; omega⟩⟩

/-- **No schedule goes on for ever.** -/
theorem wellFounded_step [Authored D] [Summary S D] [Listing S] :
    WellFounded fun y x : Dialogue S T => Step x y :=
  (InvImage.wf potential wellFounded_lt).mono fun _ _ => Step.potential_lt

/-! ### No schedule stops before the side has ended -/

lemma exists_step_of_offered? {f : Frame} (hcapacity : 0 < x.capacity)
    (hoffer : x.half.offered? = some f) : ∃ y, Step x y := by
  cases houtbox : x.outbox with
  | cons f rest => exact ⟨_, .read houtbox⟩
  | nil =>
    have hmove : x.half.move? x.channel .send =
        some (x.half.afterSending, { x.channel with outbox := [f] }) := by
      simp [Half.move?, hoffer, channel, houtbox, hcapacity]
    exact ⟨_, .move hmove⟩

lemma exists_step_of_isWaiting (hroom : 0 < x.room) (hwaiting : x.half.isWaiting = true) :
    ∃ y, Step x y := by
  cases hinbox : x.inbox with
  | cons f rest =>
    have hmove : x.half.move? x.channel .receive =
        some (x.half.hear f, { x.channel with inbox := rest }) := by
      simp [Half.move?, hwaiting, channel, hinbox]
    exact ⟨_, .move hmove⟩
  | nil =>
    cases hclosed : x.closed with
    | true =>
      have hmove : x.half.move? x.channel .receive = some (x.half.hearNothing, x.channel) := by
        simp [Half.move?, hwaiting, channel, hinbox, hclosed]
      exact ⟨_, .move hmove⟩
    | false =>
      cases hunsent : x.unsent with
      | cons f rest => exact ⟨_, .send hunsent (by rwa [hinbox])⟩
      | nil => exact ⟨_, .close hunsent hclosed⟩

lemma exists_step (hroom : 0 < x.room) (hcapacity : 0 < x.capacity)
    (hopen : x.half.outcome? = none) : ∃ y, Step x y := by
  cases hphase : x.half.phase with
  | refused e => simp [Half.outcome?, hphase] at hopen
  | greeting => exact exists_step_of_isWaiting hroom (by rw [Half.isWaiting, hphase])
  | opening => exact exists_step_of_offered? hcapacity (by rw [Half.offered?, hphase])
  | running peer out inc =>
    cases inc with
    | merging n result => exact exists_step_of_isWaiting hroom (by rw [Half.isWaiting, hphase])
    | ended p =>
      cases out with
      | ended sent => simp [Half.outcome?, hphase] at hopen
      | streaming cursor sent waiting =>
        cases waiting with
        | some f => exact exists_step_of_offered? hcapacity (by rw [Half.offered?, hphase])
        | none =>
          obtain ⟨h, hprepare⟩ : ∃ h, x.half.prepare? = some h := by
            rw [Half.prepare?, hphase]
            exact ⟨_, rfl⟩
          have hmove : x.half.move? x.channel .prepare = some (h, x.channel) := by
            rw [Half.move?, hprepare]
            rfl
          exact ⟨_, .move hmove⟩

/-! ### What every step keeps -/

structure Attentive (s : S) (frames read : List Frame) (x : Dialogue S T) : Prop where
  split : frames = read ++ x.coming
  state : x.half.state = (mergeAll s (heed D T read).deltas).1
  heeding : Heeding D frames x.half read
  closed : x.closed = true → x.unsent = []
  room : 0 < x.room
  capacity : 0 < x.capacity

variable {s : S} {batchSize room capacity : Nat} {frames read : List Frame}

omit [CausalTimestamp T D] in
lemma attentive_start :
    Attentive s frames [] (.start s batchSize frames room capacity : Dialogue S T) where
  split := rfl
  state := rfl
  heeding := .before (.inl rfl) rfl
  closed := nofun
  room := Nat.lt_of_lt_of_le Nat.zero_lt_one (Nat.le_max_right ..)
  capacity := Nat.lt_of_lt_of_le Nat.zero_lt_one (Nat.le_max_right ..)

lemma Attentive.step (hx : Attentive s frames read x) (hstep : Step x y) :
    ∃ read, Attentive s frames read y := by
  rcases hstep.cases with ⟨h, hprepare, rfl⟩ | ⟨f, hoffer, rfl⟩ |
    ⟨hwaiting, f, rest, hinbox, rfl⟩ | ⟨hwaiting, hempty, hclosed, rfl⟩ |
    ⟨f, rest, hunsent, rfl⟩ | ⟨hunsent, -, rfl⟩ | ⟨f, rest, -, rfl⟩
  · obtain ⟨peer, cursor, sent, inc, hphase, rfl⟩ := prepare?_cases hprepare
    exact ⟨read, { hx with heeding := hx.heeding.of_phase hphase rfl (intact_streaming _ _ _) }⟩
  · refine ⟨read, { hx with state := (state_afterSending _).trans hx.state, heeding := ?_ }⟩
    rcases offered?_cases hoffer with ⟨hphase, hafter⟩ | ⟨peer, cursor, sent, inc, hphase, hafter⟩
    · rw [hafter]
      cases hx.heeding with
      | before _ hread => exact .before (.inr rfl) hread
      | refused h _ => simp [hphase] at h
      | merging h _ _ => simp [hphase] at h
      | done h _ _ => simp [hphase] at h
      | failed h _ _ => simp [hphase] at h
    · rw [hafter]
      refine hx.heeding.of_phase hphase rfl ?_
      split_ifs
      · exact intact_ended _
      · exact intact_streaming _ _ _
  · have hframes : frames = read ++ f :: (rest ++ x.unsent) := by
      rw [hx.split, coming, hinbox, List.cons_append]
    have hheed := hx.heeding
    rw [hframes] at hheed
    obtain ⟨hheed, hstate⟩ := hheed.hear hwaiting hx.state
    refine ⟨read ++ [f], { hx with split := ?_, state := hstate, heeding := hframes ▸ hheed }⟩
    rw [hframes, coming, List.append_assoc, List.singleton_append]
  · have hframes : frames = read := by
      rw [hx.split, coming, hempty, hx.closed hclosed, List.append_nil, List.append_nil]
    have hheed := hx.heeding
    rw [hframes] at hheed
    obtain ⟨hheed, hstate⟩ := hheed.hearNothing hwaiting
    exact ⟨read, { hx with state := hstate.trans hx.state, heeding := hframes ▸ hheed }⟩
  · refine ⟨read, { hx with split := ?_, closed := fun hclosed => ?_ }⟩
    · rw [hx.split, coming, coming, hunsent, List.append_assoc, List.singleton_append]
    · rw [hx.closed hclosed] at hunsent
      cases hunsent
  · exact ⟨read, { hx with closed := fun _ => hunsent }⟩
  · exact ⟨read, { hx with }⟩

lemma Attentive.run (hx : Attentive s frames read x) (hrun : Relation.ReflTransGen Step x y) :
    ∃ read, Attentive s frames read y := by
  induction hrun with
  | refl => exact ⟨read, hx⟩
  | tail _ hstep ih =>
    obtain ⟨read, hy⟩ := ih
    exact hy.step hstep

omit [CausalTimestamp T D] in
/-- A side that has ended has heeded all frames, though it may have left some unread. -/
lemma Attentive.of_outcome? (hx : Attentive s frames read x) {r : Except ClusterError Report}
    (hend : x.half.outcome? = some r) :
    x.half.state = (mergeAll s (heed D T frames).deltas).1 ∧
      ((∃ report, r = .ok report ∧ (heed D T frames).complaint = none) ∨
        ∃ e, r = .error e ∧ (heed D T frames).complaint = some e) := by
  have hstate := hx.state
  cases hx.heeding with
  | before hphase _ => rcases hphase with hphase | hphase <;> simp [Half.outcome?, hphase] at hend
  | merging hphase _ _ => simp [Half.outcome?, hphase] at hend
  | refused hphase hverdict =>
    simp only [Half.outcome?, hphase, Option.some.injEq] at hend
    rw [hverdict]
    exact ⟨hstate, .inr ⟨_, hend.symm, rfl⟩⟩
  | @done peer out p hphase hout hverdict =>
    rw [hverdict]
    cases out with
    | streaming _ _ _ => simp [Half.outcome?, hphase] at hend
    | ended sent =>
      cases sent with
      | error e => exact absurd rfl (hout e)
      | ok n =>
        simp only [Half.outcome?, hphase, Option.some.injEq] at hend
        exact ⟨hstate, .inl ⟨_, hend.symm, rfl⟩⟩
  | @failed peer out e hphase hout hverdict =>
    rw [hverdict]
    cases out with
    | streaming _ _ _ => simp [Half.outcome?, hphase] at hend
    | ended sent =>
      cases sent with
      | error e => exact absurd rfl (hout e)
      | ok n =>
        simp only [Half.outcome?, hphase, Option.some.injEq] at hend
        exact ⟨hstate, .inr ⟨e, hend.symm, rfl⟩⟩

lemma Attentive.exists_end [Authored D] [Summary S D] [Listing S]
    (hx : Attentive s frames read x) :
    ∃ y, Relation.ReflTransGen Step x y ∧ y.half.outcome? ≠ none := by
  induction x using (wellFounded_step (S := S) (T := T)).induction generalizing read with
  | _ x ih =>
    by_cases hopen : x.half.outcome? = none
    · obtain ⟨y, hstep⟩ := exists_step hx.room hx.capacity hopen
      obtain ⟨read, hy⟩ := hx.step hstep
      obtain ⟨z, hrun, hend⟩ := ih y hstep hy
      exact ⟨z, .head hstep hrun, hend⟩
    · exact ⟨x, .refl, hopen⟩

end Dialogue

/-! ### What a side makes of any peer -/

open Dialogue Relation

/-- **A side accepts what is grammatical and nothing else.** A peer sends some frames and then no
more, and reads what it is sent. Then every schedule comes to an end, and not before the side has
ended. All the time the side is in the state that whole frames have made. In the end it is in the
state that the batches up to `done` or the first frame at fault have made; it complains of that
frame, or of the end of the frames, if and only if the frames are not those of an exchange. -/
theorem side_accepts_the_grammatical (F : Family) [Wire F.Delta] [Wire F.Timestamp] (s : F.State)
    (batchSize : Nat) (frames : List Frame) (room capacity : Nat) :
    (∀ schedule : ℕ → Dialogue F.State F.Timestamp, ∃ n, ¬ Step (schedule n) (schedule (n + 1))) ∧
    ∀ x : Dialogue F.State F.Timestamp,
      ReflTransGen Step (.start s batchSize frames room capacity) x →
        (x.half.outcome? = none → ∃ y, Step x y) ∧
        (∃ read, read <+: frames ∧
          x.half.state = (mergeAll s (heed F.Delta F.Timestamp read).deltas).1) ∧
        ∀ r, x.half.outcome? = some r →
          x.half.state = (mergeAll s (heed F.Delta F.Timestamp frames).deltas).1 ∧
          ((∃ report, r = .ok report) ↔ Grammatical F.Delta F.Timestamp frames) ∧
          ∀ e, r = .error e → (heed F.Delta F.Timestamp frames).complaint = some e ∧
            ((∃ detail, e = .violation detail) ∨ ∃ detail, e = .serialization detail) := by
  refine ⟨fun schedule => ?_, fun x hrun => ?_⟩
  · by_contra! hforever
    exact (wellFounded_iff_isEmpty_descending_chain.mp wellFounded_step).elim ⟨schedule, hforever⟩
  obtain ⟨read, hx⟩ := attentive_start.run hrun
  refine ⟨exists_step hx.room hx.capacity, ⟨read, ⟨x.coming, hx.split.symm⟩, hx.state⟩,
    fun r hend => ?_⟩
  obtain ⟨hstate, hreport⟩ := hx.of_outcome? hend
  refine ⟨hstate, ?_, fun e he => ?_⟩
  · rw [← heed_complaint_eq_none_iff]
    rcases hreport with ⟨report, rfl, hnone⟩ | ⟨e, rfl, hsome⟩
    · exact ⟨fun _ => hnone, fun _ => ⟨report, rfl⟩⟩
    · simp [hsome]
  · subst he
    rcases hreport with ⟨report, heq, -⟩ | ⟨e', heq, hsome⟩
    · cases heq
    · cases heq
      exact ⟨hsome, heed_complaint_cases hsome⟩

/-- A batch of one addition between two timestamps, and `done`. -/
def openedTwice : List Frame :=
  [.timestamp (Wire.encode (Lattice.bottom : CausalContext)),
    .deltas (Wire.encode [OrSetDelta.add ⟨"a", 1⟩ 7]),
    .timestamp (Wire.encode (Lattice.bottom : CausalContext)), .done]

lemma heed_openedTwice : heed (OrSetDelta Nat) CausalContext openedTwice =
    ⟨[.add ⟨"a", 1⟩ 7], some (.violation "second timestamp in one exchange")⟩ := by
  have htimestamp : Wire.decode (Wire.encode (Lattice.bottom : CausalContext)) =
      .ok (Lattice.bottom : CausalContext) :=
    LawfulWire.decode_encode (LawfulWire.fits_context_iff.mpr (by decide)) (by decide)
  have hfits : LawfulWire.Fits [OrSetDelta.add ⟨"a", 1⟩ 7] := by
    simp [LawfulWire.Fits, LawfulWire.FitsSetDelta, word64]
  have hbatch : Wire.decode (Wire.encode [OrSetDelta.add ⟨"a", 1⟩ 7]) =
      .ok [OrSetDelta.add ⟨"a", 1⟩ 7] :=
    LawfulWire.decode_encode hfits (by decide)
  rw [openedTwice, heed, htimestamp]
  exact heedBatches_deltas hbatch

/-- The batch is merged, and what comes after it is complained of. -/
theorem merged_before_second_timestamp : ∃ x : Dialogue (Family.orSet Nat).State _,
    ReflTransGen Step (.start initial 1 openedTwice 1 1) x ∧
      x.half.outcome? = some (.error (.violation "second timestamp in one exchange")) ∧
      x.half.state = (mergeAll initial [OrSetDelta.add ⟨"a", 1⟩ 7]).1 := by
  obtain ⟨x, hrun, hend⟩ : ∃ x : Dialogue (Family.orSet Nat).State _,
      ReflTransGen Step (.start initial 1 openedTwice 1 1) x ∧ x.half.outcome? ≠ none :=
    attentive_start.exists_end
  obtain ⟨r, hr⟩ := Option.ne_none_iff_exists'.mp hend
  obtain ⟨-, hall⟩ := side_accepts_the_grammatical (.orSet Nat) initial 1 openedTwice 1 1
  obtain ⟨-, -, hlast⟩ := hall x hrun
  obtain ⟨hstate, hok, herror⟩ := hlast r hr
  have hverdict : heed (Family.orSet Nat).Delta (Family.orSet Nat).Timestamp openedTwice = _ :=
    heed_openedTwice
  rw [hverdict] at hstate herror
  rw [← heed_complaint_eq_none_iff, hverdict] at hok
  cases r with
  | ok report => cases hok.mp ⟨report, rfl⟩
  | error e =>
    obtain rfl := Option.some.inj (herror e rfl).1
    exact ⟨x, hrun, hr, hstate⟩

end DeltaRing.Exchange
