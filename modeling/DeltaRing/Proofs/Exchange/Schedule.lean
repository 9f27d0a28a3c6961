import DeltaRing.Proofs.Exchange.Party
import DeltaRing.Proofs.Replication.AntiEntropy
import DeltaRing.Proofs.Wire.Nesting

/-!
Exchanges under every schedule.

Moves keep an exchange on its course whatever their order: each side has sent a beginning of what it
has to send, its queue holds what the peer has not taken yet, and the peer is in the state that the
taken batches make. So nobody ever complains, and nobody waits in vain: where neither side can move,
both have ended. Since every side takes only so many moves, every schedule comes to an end.
-/

namespace DeltaRing.Exchange

variable {S D T : Type} [CausalTimestamp T D] [DeltaCrdt S D T] [Wire D] [Wire T]

/-- The second exchange is the first one after so many moves, in any order. -/
inductive After (x : Duplex S T S T) : Nat → Duplex S T S T → Prop
  | start : After x 0 x
  | move {k : Nat} {y z : Duplex S T S T} (side : Side) (m : Move) : After x k y →
    y.move? side m = some z → After x (k + 1) z

/-! ### What a move of the left side does -/

def Duplex.swap {S T : Type} (x : Duplex S T S T) : Duplex S T S T :=
  ⟨x.right, x.left, x.toRight, x.toLeft, x.capacity⟩

def Duplex.channel {S T : Type} (x : Duplex S T S T) : Half.Channel :=
  ⟨x.toLeft, x.toRight, x.capacity, x.right.isSending, x.right.isListening⟩

variable {x y : Duplex S T S T} {mv : Move}

lemma move?_left : x.move? .left mv = (x.left.move? x.channel mv).map fun p =>
    ⟨p.1, x.right, p.2.inbox, p.2.outbox, x.capacity⟩ := by
  simp only [Duplex.move?, Duplex.channel]
  cases x.left.move? _ mv <;> rfl

lemma move?_right : x.move? .right mv = (x.swap.move? .left mv).map Duplex.swap := by
  simp only [Duplex.move?, Duplex.swap, Option.bind_eq_bind, Option.map_bind]
  rfl

lemma move?_left_cases (hmove : x.move? .left mv = some y) :
    (∃ h, x.left.prepare? = some h ∧ y = { x with left := h }) ∨
    (∃ f, x.left.offered? = some f ∧ x.right.isListening = true ∧
      y = { x with left := x.left.afterSending, toRight := x.toRight ++ [f] }) ∨
    (∃ f, x.left.offered? = some f ∧ x.right.isListening = false) ∨
    (x.left.isWaiting = true ∧ ∃ f rest, x.toLeft = f :: rest ∧
      y = { x with left := x.left.hear f, toLeft := rest }) ∨
    (x.left.isWaiting = true ∧ x.toLeft = [] ∧ x.right.isSending = false) := by
  rw [move?_left, Option.map_eq_some_iff] at hmove
  obtain ⟨⟨h, ch⟩, hhalf, rfl⟩ := hmove
  rcases Half.move?_cases hhalf with ⟨hprepare, rfl⟩ | ⟨f, hoffer, hlistening, rfl, rfl⟩ |
    ⟨f, hoffer, hdeaf, -⟩ | ⟨hwaiting, f, rest, hinbox, rfl, rfl⟩ | ⟨hwaiting, hempty, hsilent, -⟩
  · exact .inl ⟨h, hprepare, rfl⟩
  · exact .inr (.inl ⟨f, hoffer, hlistening, rfl⟩)
  · exact .inr (.inr (.inl ⟨f, hoffer, hdeaf⟩))
  · exact .inr (.inr (.inr (.inl ⟨hwaiting, f, rest, hinbox, rfl⟩)))
  · exact .inr (.inr (.inr (.inr ⟨hwaiting, hempty, hsilent⟩)))

def Stuck (x : Duplex S T S T) : Prop := ∀ side m, x.move? side m = none

namespace Stuck

lemma swap (hx : Stuck x) : Stuck x.swap := by
  intro side m
  cases side with
  | left => simpa [move?_right] using hx .right m
  | right => simpa [move?_right, Duplex.swap] using hx .left m

lemma left (hx : Stuck x) (m : Move) : x.left.move? x.channel m = none := by
  simpa [move?_left] using hx .left m

lemma prepare?_left (hx : Stuck x) : x.left.prepare? = none := by
  simpa [Half.move?] using hx.left .prepare

lemma offered?_left (hx : Stuck x) (hroom : 0 < x.capacity) {f : Frame}
    (hoffer : x.left.offered? = some f) : x.right.isListening = true ∧ x.toRight ≠ [] := by
  have hsend := hx.left .send
  cases hlistening : x.right.isListening with
  | false => simp [Half.move?, hoffer, Duplex.channel, hlistening] at hsend
  | true =>
    refine ⟨rfl, fun hempty => ?_⟩
    simp [Half.move?, hoffer, Duplex.channel, hlistening, hempty, hroom] at hsend

lemma isWaiting_left (hx : Stuck x) (hwaiting : x.left.isWaiting = true) :
    x.toLeft = [] ∧ x.right.isSending = true := by
  have hreceive := hx.left .receive
  cases hinbox : x.toLeft with
  | cons f rest => simp [Half.move?, hwaiting, Duplex.channel, hinbox] at hreceive
  | nil =>
    refine ⟨rfl, ?_⟩
    simpa [Half.move?, hwaiting, Duplex.channel, hinbox] using hreceive

end Stuck

/-! ### What every move keeps -/

/-- What two sides have sent each other, with the batches `gone` of the left side and `came` of the
right side, and how much of it they have taken. -/
structure Course (a b : S) (m n : Nat) (x : Duplex S T S T) (gone came : List (List D))
    (frames frames' : List Frame) (taken taken' : Nat) : Prop where
  left : Party a b m x.left gone frames came taken
  right : Party b a n x.right came frames' gone taken'
  toLeft : x.toLeft = frames'.drop taken
  toRight : x.toRight = frames.drop taken'
  taken_le : taken ≤ frames'.length
  taken_le' : taken' ≤ frames.length
  room : 0 < x.capacity

variable {a b : S} {m n capacity : Nat} {gone came : List (List D)} {frames frames' : List Frame}
  {taken taken' : Nat}

lemma Course.swap (hx : Course a b m n x gone came frames frames' taken taken') :
    Course b a n m x.swap came gone frames' frames taken' taken :=
  ⟨hx.right, hx.left, hx.toRight, hx.toLeft, hx.taken_le', hx.taken_le, hx.room⟩

lemma course_connect : Course a b m n (Duplex.connect (.start a m) (.start b n) capacity)
    [] [] [] [] 0 0 where
  left := ⟨.opening rfl, .before (.inl rfl) rfl, rfl⟩
  right := ⟨.opening rfl, .before (.inl rfl) rfl, rfl⟩
  toLeft := rfl
  toRight := rfl
  taken_le := le_rfl
  taken_le' := le_rfl
  room := Nat.lt_of_lt_of_le Nat.zero_lt_one (Nat.le_max_right ..)

lemma Course.move_left (hfollows : Follows a b) (hm : 0 < m)
    (hx : Course a b m n x gone came frames frames' taken taken')
    (hmove : x.move? .left mv = some y) :
    ∃ gone' sent now, Course a b m n y gone' came sent frames' now taken' ∧
      y.left.spent + y.right.spent = x.left.spent + x.right.spent + 1 := by
  rcases move?_left_cases hmove with ⟨h, hprepare, rfl⟩ | ⟨f, hoffer, -, rfl⟩ |
    ⟨f, hoffer, hdeaf⟩ | ⟨hwaiting, f, rest, hinbox, rfl⟩ | ⟨hwaiting, hempty, hsilent⟩
  · obtain ⟨hleft, hspent⟩ := hx.left.prepare hfollows hx.right.sending.subset hm hprepare
    exact ⟨gone, frames, taken, { hx with left := hleft }, by simp only [hspent]; omega⟩
  · obtain ⟨gone', hgone, hleft, hspent⟩ := hx.left.send hoffer
    have htaken' := hx.taken_le'.trans (hx.left.length_frames_le hoffer)
    have hright : Receiving b a x.right gone' taken' := by
      rcases hgone with rfl | ⟨c, rfl⟩
      · exact hx.right.receiving
      · exact hx.right.receiving.append htaken' c
    refine ⟨gone', frames ++ [f], taken, { hx with
      left := hleft
      right := { hx.right with receiving := hright }
      toRight := ?_
      taken_le' := ?_ }, by simp only [hspent]; omega⟩
    · rw [List.drop_append_of_le_length hx.taken_le', ← hx.toRight]
    · exact hx.taken_le'.trans (by simp)
  · -- the peer has not heard the end, for it has not been sent
    have htaken' := hx.taken_le'.trans (hx.left.length_frames_le hoffer)
    rw [hx.right.receiving.isListening htaken'] at hdeaf
    cases hdeaf
  · rw [hx.toLeft] at hinbox
    have hf : frames'[taken]? = some f := by
      rw [← List.head?_drop, hinbox, List.head?_cons]
    obtain ⟨hleft, hspent⟩ := hx.left.hear hfollows hx.right.sending hf hwaiting
    refine ⟨gone, frames, taken + 1, { hx with
      left := hleft
      toLeft := ?_
      taken_le := (List.getElem?_eq_some_iff.mp hf).1 }, by simp only [hspent]; omega⟩
    rw [← List.tail_drop, hinbox, List.tail_cons]
  · -- the peer has not sent the end, for it has not been heard
    rw [hx.toLeft, List.drop_eq_nil_iff] at hempty
    rw [hx.right.sending.isSending (hempty.trans (hx.left.receiving.taken_le hwaiting))] at hsilent
    cases hsilent

/-- **A run of moves stays on course.** -/
theorem After.course (hfollows : Follows a b) (hfollows' : Follows b a) (hm : 0 < m) (hn : 0 < n)
    {k : Nat}
    (hy : After (Duplex.connect (.start a m) (.start b n) capacity) k y) :
    (∃ gone came frames frames' taken taken',
      Course a b m n y gone came frames frames' taken taken') ∧
    k = y.left.spent + y.right.spent := by
  induction hy with
  | start => exact ⟨⟨_, _, _, _, _, _, course_connect⟩, rfl⟩
  | move side mv _ hmove ih =>
    obtain ⟨⟨gone, came, frames, frames', taken, taken', hx⟩, hspent⟩ := ih
    cases side with
    | left =>
      obtain ⟨gone', sent, now, hy, hone⟩ := hx.move_left hfollows hm hmove
      exact ⟨⟨_, _, _, _, _, _, hy⟩, by omega⟩
    | right =>
      rw [move?_right, Option.map_eq_some_iff] at hmove
      obtain ⟨z, hmove, rfl⟩ := hmove
      obtain ⟨came', sent, now, hz, hone⟩ := hx.swap.move_left hfollows' hn hmove
      refine ⟨⟨_, _, _, _, _, _, hz.swap⟩, ?_⟩
      simp only [Duplex.swap] at hone ⊢
      omega

/-! ### Where it ends -/

lemma Course.opened_of_stuck (hx : Course a b m n x gone came frames frames' taken taken')
    (hstuck : Stuck x) : x.left.phase ≠ .opening := by
  intro hphase
  have hoffer : x.left.offered? = some (.timestamp (Encoded.timestampOf x.left.state)) := by
    rw [Half.offered?, hphase]
  have hfull := (hstuck.offered?_left hx.room hoffer).2
  rw [hx.toRight, hx.left.sending.opening_iff.mp hphase, List.drop_nil] at hfull
  exact hfull rfl

/-- Where neither side can move, the timestamps have been exchanged. -/
lemma Course.running_of_stuck (hx : Course a b m n x gone came frames frames' taken taken')
    (hstuck : Stuck x) : ∃ peer out inc, x.left.phase = .running peer out inc := by
  cases hx.left.sending with
  | opening hphase => exact absurd hphase (hx.opened_of_stuck hstuck)
  | streaming hphase _ _ => exact ⟨_, _, _, hphase⟩
  | ended hphase _ _ => exact ⟨_, _, _, hphase⟩
  | greeting hphase =>
    have hwaiting : x.left.isWaiting = true := by rw [Half.isWaiting, hphase]
    have hempty := (hstuck.isWaiting_left hwaiting).1
    rw [hx.toLeft] at hempty
    -- nothing has come, so the peer has not sent its timestamp
    have hpeer : x.right.phase = .opening := by
      refine hx.right.sending.opening_iff.mpr ?_
      cases hx.left.receiving with
      | before _ _ => exact hempty
      | merging h _ _ _ => simp [hphase] at h
      | ended h _ _ => simp [hphase] at h
    exact absurd hpeer (hx.swap.opened_of_stuck hstuck.swap)

/-- A frame that is waited for would be made or be on its way. -/
lemma Course.heard_of_stuck (hx : Course a b m n x gone came frames frames' taken taken')
    (hstuck : Stuck x) : x.left.isWaiting = false := by
  rw [← Bool.not_eq_true]
  intro hwaiting
  obtain ⟨hempty, hsending⟩ := hstuck.isWaiting_left hwaiting
  obtain ⟨peer, out, inc, hphase⟩ := hx.swap.running_of_stuck hstuck.swap
  have hphase : x.right.phase = .running peer out inc := hphase
  cases out with
  | ended outcome => simp [Half.isSending, hphase] at hsending
  | streaming cursor sent waiting =>
    cases waiting with
    | none =>
      have hprepare : x.right.prepare? = none := hstuck.swap.prepare?_left
      simp [Half.prepare?, hphase] at hprepare
    | some f =>
      have hoffer : x.right.offered? = some f := by rw [Half.offered?, hphase]
      exact (hstuck.swap.offered?_left hx.room hoffer).2 hempty

/-- **No exchange is stuck before both sides have ended.** -/
theorem Course.ended_of_stuck (hx : Course a b m n x gone came frames frames' taken taken')
    (hstuck : Stuck x) : x.left.outcome? ≠ none := by
  obtain ⟨peer, out, inc, hphase⟩ := hx.running_of_stuck hstuck
  obtain ⟨peer', out', inc', hphase'⟩ := hx.swap.running_of_stuck hstuck.swap
  have hphase' : x.right.phase = .running peer' out' inc' := hphase'
  have hheard := hx.heard_of_stuck hstuck
  have hheard' : x.right.isWaiting = false := hx.swap.heard_of_stuck hstuck.swap
  cases inc with
  | merging received result => simp [Half.isWaiting, hphase] at hheard
  | ended outcome =>
    cases out with
    | ended outcome' => simp [Half.outcome?, hphase]
    | streaming cursor sent waiting =>
      cases waiting with
      | none =>
        have hprepare := hstuck.prepare?_left
        simp [Half.prepare?, hphase] at hprepare
      | some f =>
        have hoffer : x.left.offered? = some f := by rw [Half.offered?, hphase]
        have hlistening := (hstuck.offered?_left hx.room hoffer).1
        cases inc' with
        | merging received result => simp [Half.isWaiting, hphase'] at hheard'
        | ended outcome' => simp [Half.isListening, hphase'] at hlistening

/-- A side that has ended has sent what was pending for the peer, and has merged what was pending
for itself. -/
lemma Course.of_outcome? (hx : Course a b m n x gone came frames frames' taken taken')
    {r : Except ClusterError Report} (hend : x.left.outcome? = some r) :
    (∃ result, r = .ok ⟨gone.length, came.length, result, Encoded.timestampOf b⟩ ∧
      (result = .updated ↔ 0 < came.length)) ∧
    x.left.state = (mergeAll a came.flatten).1 ∧
    (Cut (pending a b) m gone ∧ gone.flatten.length = (pending a b).length) ∧
    Cut (pending b a) n came ∧ came.flatten.length = (pending b a).length := by
  have hreceiving := hx.left.receiving
  have htaken := hx.taken_le
  cases hreceiving with
  | before hphase _ => rcases hphase with hphase | hphase <;> simp [Half.outcome?, hphase] at hend
  | merging hphase _ _ _ => simp [Half.outcome?, hphase] at hend
  | @ended out result hphase hstate hresult =>
    have hpeer := hx.right.sending.complete (by omega)
    rw [hx.right.batchSize] at hpeer
    cases out with
    | streaming _ _ _ => simp [Half.outcome?, hphase] at hend
    | ended outcome =>
      obtain ⟨rfl, hown⟩ := hx.left.sending.of_ended hphase
      rw [hx.left.batchSize] at hown
      simp only [Half.outcome?, hphase, Option.some.injEq] at hend
      exact ⟨⟨result, hend.symm, hresult⟩, hstate, hown, hpeer⟩

lemma Course.report (hx : Course a b m n x gone came frames frames' taken taken') (hm : 0 < m)
    (hn : 0 < n) {r : Except ClusterError Report} (hend : x.left.outcome? = some r) :
    (∃ result, r = .ok ⟨(pending a b).length ⌈/⌉ m, (pending b a).length ⌈/⌉ n, result,
        Encoded.timestampOf b⟩ ∧ (result = .updated ↔ 0 < (pending b a).length ⌈/⌉ n)) ∧
    x.left.state = (mergeAll a came.flatten).1 ∧ (∀ δ, δ ∈ gone.flatten ↔ δ ∈ pending a b) ∧
    ∀ δ, δ ∈ came.flatten ↔ δ ∈ pending b a := by
  obtain ⟨hreport, hstate, ⟨hcut, hall⟩, hcut', hall'⟩ := hx.of_outcome? hend
  rw [hcut.length_eq hm hall, hcut'.length_eq hn hall'] at hreport
  exact ⟨hreport, hstate, fun _ => hcut.mem_flatten_iff hall, fun _ => hcut'.mem_flatten_iff hall'⟩

lemma Course.spent_le (hx : Course a b m n x gone came frames frames' taken taken') (hm : 0 < m)
    (hn : 0 < n) : x.left.spent + x.right.spent ≤
      3 * ((pending a b).length ⌈/⌉ m + (pending b a).length ⌈/⌉ n) + 10 := by
  have hgone := hx.left.sending.length_le (hx.left.batchSize.symm ▸ hm)
  have hcame := hx.right.sending.length_le (hx.right.batchSize.symm ▸ hn)
  rw [hx.left.batchSize] at hgone
  rw [hx.right.batchSize] at hcame
  have hleft := hx.left.spent_le
  have hright := hx.right.spent_le
  omega

lemma Course.exists_move (hx : Course a b m n x gone came frames frames' taken taken')
    (hopen : x.left.outcome? = none ∨ x.right.outcome? = none) :
    ∃ side mv y, x.move? side mv = some y := by
  by_contra hnone
  have hstuck : Stuck x := fun side mv => Option.eq_none_iff_forall_not_mem.mpr
    fun y hy => hnone ⟨side, mv, y, hy⟩
  rcases hopen with hopen | hopen
  · exact hx.ended_of_stuck hstuck hopen
  · exact hx.swap.ended_of_stuck hstuck.swap hopen

/-! ### Always the first possible move -/

lemma After.first {k : Nat} {side : Side} {z : Duplex S T S T} (hmove : x.move? side mv = some y)
    (hz : After y k z) : After x (k + 1) z := by
  induction hz with
  | start => exact .move side mv .start hmove
  | move side' mv' _ hmove' ih => exact .move side' mv' ih hmove'

lemma exists_after_runWithin (fuel : Nat) (x : Duplex S T S T) :
    ∃ k, After x k (x.runWithin fuel) ∧ (k = fuel ∨ Stuck (x.runWithin fuel)) := by
  induction fuel generalizing x with
  | zero => exact ⟨0, .start, .inl rfl⟩
  | succ fuel ih =>
    rw [Duplex.runWithin]
    split
    · rename_i hnone
      refine ⟨0, .start, .inr fun side m => ?_⟩
      rw [List.findSome?_eq_none_iff] at hnone
      exact hnone (side, m) (by cases side <;> cases m <;> decide)
    · rename_i y hsome
      obtain ⟨⟨side, m⟩, -, hmove⟩ := List.exists_of_findSome?_eq_some hsome
      obtain ⟨k, hk, hend⟩ := ih y
      exact ⟨k + 1, hk.first hmove, hend.imp_left (congrArg (· + 1))⟩

/-- **The moves that are allowed for are enough.** -/
theorem run_course (capacity : Nat) (hfollows : Follows a b) (hfollows' : Follows b a)
    (hm : 0 < m) (hn : 0 < n) (hthere : (pending a b).length ≤ (deltasSince a none).length)
    (hback : (pending b a).length ≤ (deltasSince b none).length) :
    let x : Duplex S T S T := (Duplex.connect (.start a m) (.start b n) capacity).run
    (∃ gone came frames frames' taken taken',
      Course a b m n x gone came frames frames' taken taken') ∧
    x.left.outcome? ≠ none ∧ x.right.outcome? ≠ none := by
  intro x
  set start : Duplex S T S T := Duplex.connect (.start a m) (.start b n) capacity
  obtain ⟨k, hx, hend⟩ := exists_after_runWithin start.moveBound start
  obtain ⟨⟨gone, came, frames, frames', taken, taken', hc⟩, hspent⟩ :=
    hx.course hfollows hfollows' hm hn
  have hstuck : Stuck x := by
    refine hend.resolve_left fun hfuel => ?_
    have hle := hc.spent_le hm hn
    have hgone : (pending a b).length ⌈/⌉ m ≤ (deltasSince a none).length :=
      (ceilDiv_le_iff_le_mul hm).mpr (hthere.trans (Nat.le_mul_of_pos_left _ hm))
    have hcame : (pending b a).length ⌈/⌉ n ≤ (deltasSince b none).length :=
      (ceilDiv_le_iff_le_mul hn).mpr (hback.trans (Nat.le_mul_of_pos_left _ hn))
    have hbound : start.moveBound =
      6 * ((deltasSince a none).length + (deltasSince b none).length + 3) := rfl
    omega
  exact ⟨⟨_, _, _, _, _, _, hc⟩, hc.ended_of_stuck hstuck, hc.swap.ended_of_stuck hstuck.swap⟩

/-- A side that has nothing to send and nothing to hear ends as it began. -/
lemma Level.of_course (hl : Level a b)
    (hx : Course a b m n x gone came frames frames' taken taken') (hm : 0 < m) (hn : 0 < n)
    (hended : x.left.outcome? ≠ none) :
    x.left.outcome? = some (.ok ⟨0, 0, .unchanged, Encoded.timestampOf b⟩) ∧ x.left.state = a := by
  obtain ⟨r, hr⟩ := Option.ne_none_iff_exists'.mp hended
  obtain ⟨⟨result, rfl, hresult⟩, hstate, -, hcame⟩ := hx.report hm hn hr
  have hnothing : came.flatten = [] := List.eq_nil_iff_forall_not_mem.mpr fun δ hδ => by
    have := (hcame δ).mp hδ
    rw [hl.back] at this
    cases this
  have hlength : (pending b a).length ⌈/⌉ n = 0 := by simp [hl.back]
  have hlength' : (pending a b).length ⌈/⌉ m = 0 := by simp [hl.there]
  rw [hlength] at hresult hr
  rw [hlength'] at hr
  rw [hnothing] at hstate
  cases result with
  | updated => exact absurd (hresult.mp rfl) (Nat.lt_irrefl 0)
  | unchanged => exact ⟨hr, hstate⟩

/-- An exchange between replicas that have nothing to send to each other changes neither. -/
lemma Level.run (hl : Level a b) (capacity : Nat) (hm : 0 < m) (hn : 0 < n) :
    let x : Duplex S T S T := (Duplex.connect (.start a m) (.start b n) capacity).run
    x.left.outcome = .ok ⟨0, 0, .unchanged, Encoded.timestampOf b⟩ ∧
      x.right.outcome = .ok ⟨0, 0, .unchanged, Encoded.timestampOf a⟩ ∧
      x.left.state = a ∧ x.right.state = b := by
  intro x
  obtain ⟨⟨gone, came, frames, frames', taken, taken', hc⟩, hended, hended'⟩ :=
    run_course capacity hl.follows hl.symm.follows hm hn (by simp [hl.there]) (by simp [hl.back])
  obtain ⟨hleft, hstate⟩ := hl.of_course hc hm hn hended
  obtain ⟨hright, hstate'⟩ := hl.symm.of_course hc.swap hn hm hended'
  have hright : x.right.outcome? = some (.ok ⟨0, 0, .unchanged, Encoded.timestampOf a⟩) := hright
  refine ⟨?_, ?_, hstate, hstate'⟩
  · rw [Half.outcome, hleft, Option.getD_some]
  · rw [Half.outcome, hright, Option.getD_some]

/-- An exchange fails on both sides, and changes neither, if neither can read with what timestamp
the other opens. -/
lemma run_of_undecodable {e e' : ClusterError} (capacity : Nat)
    (ha : (Wire.decode (Encoded.timestampOf a) : Except ClusterError T) = .error e)
    (hb : (Wire.decode (Encoded.timestampOf b) : Except ClusterError T) = .error e') :
    (Duplex.connect (.start a m) (.start b n) capacity : Duplex S T S T).run =
      ⟨⟨a, m, .refused e'⟩, ⟨b, n, .refused e⟩, [], [], max capacity 1⟩ := by
  have hroom : 0 < max capacity 1 := by omega
  -- each side sends its timestamp and reads the other's
  obtain ⟨k, hk⟩ : ∃ k, (Duplex.connect (.start a m) (.start b n) capacity :
      Duplex S T S T).moveBound = k + 4 := by
    refine Nat.exists_eq_add_of_le' ?_
    rw [Duplex.moveBound]
    omega
  rw [Duplex.run, hk]
  cases k <;> simp [Duplex.connect, Half.start, Duplex.runWithin, Duplex.moves, Duplex.move?,
    Half.move?, Half.prepare?, Half.offered?, Half.isSending, Half.isListening, Half.isWaiting,
    Half.afterSending, Half.hear, hroom, ha, hb]

variable [Authored D] [Summary S D] [Convergent S] [Listing S] [LawfulWire D] [LawfulWire T]
  {E X Y : Set D}

lemma After.onCourse (hk : Parley E X Y a b) (hm : 0 < m) (hn : 0 < n) {k : Nat}
    (hy : After (Duplex.connect (.start a m) (.start b n) capacity) k y) :
    (∃ gone came frames frames' taken taken',
      Course a b m n y gone came frames frames' taken taken') ∧
    k = y.left.spent + y.right.spent :=
  hy.course hk.follows hk.symm.follows hm hn

omit [Convergent S] [LawfulWire D] [LawfulWire T] [Wire D] [Wire T] in
lemma length_pending_le : (pending a b).length ≤ (deltasSince a none).length := by
  have hsubset : pending a b ⊆ deltasSince a none := fun δ hδ => (Kin.mem_pending.mp hδ).1
  have hnodup : (pending a b).Nodup := Listing.nodup_deltasSince a _
  exact (hnodup.subperm hsubset).length_le

/-! ### Exchanges between replicas of a run -/

section

open World

variable {ι : Type} [DecidableEq ι]

/-- **An exchange comes to the same end under every schedule.** Until both sides have ended, one of
them can move, and no schedule has more than so many moves. A side that has ended has sent the
batches that the deltas fill which the peer lacked at the start, and has received those that it
lacked itself. It has changed if there were any, knows the timestamp that the peer opened with, and
has the join of both. In the end the replicas are equal. The timestamps have to travel, and so have
the deltas that either has to send. -/
theorem exchange_under_any_schedule (F : Family) [Wire F.Delta] [LawfulWire F.Delta]
    [Wire F.Timestamp] [LawfulWire F.Timestamp] (actor : ι ↪ Actor)
    (events : List (Event ι F.Operation F.Timestamp)) (i j : ι) {m n capacity k : Nat}
    {x : Duplex F.State F.Timestamp F.State F.Timestamp} (hm : 0 < m) (hn : 0 < n) :
    let w : World ι F.State F.Delta := run actor events
    let a := w.replica i
    let b := w.replica j
    let there := (pending a b).length ⌈/⌉ m
    let back := (pending b a).length ⌈/⌉ n
    (∀ δ ∈ pending a b, LawfulWire.Travels [δ]) → (∀ δ ∈ pending b a, LawfulWire.Travels [δ]) →
    LawfulWire.Travels (timestamp a) → LawfulWire.Travels (timestamp b) →
    After (Duplex.connect (.start a m) (.start b n) capacity) k x →
      k ≤ 3 * (there + back) + 10 ∧
      (x.left.outcome? = none ∨ x.right.outcome? = none →
        ∃ side mv y, x.move? side mv = some y) ∧
      (∀ r, x.left.outcome? = some r →
        (∃ result, r = .ok ⟨there, back, result, Encoded.timestampOf b⟩ ∧
          (result = .updated ↔ 0 < back)) ∧
        timestamp x.left.state = Lattice.join (timestamp a) (timestamp b)) ∧
      (∀ r, x.right.outcome? = some r →
        (∃ result, r = .ok ⟨back, there, result, Encoded.timestampOf a⟩ ∧
          (result = .updated ↔ 0 < there)) ∧
        timestamp x.right.state = Lattice.join (timestamp a) (timestamp b)) ∧
      (x.left.outcome? ≠ none → x.right.outcome? ≠ none → x.left.state = x.right.state) := by
  intro w a b there back hthere hback ha hb hx
  have h : Sound actor w := sound_run actor events
  have hk : Parley {δ | δ ∈ w.emitted} {δ | δ ∈ w.delivered i} {δ | δ ∈ w.delivered j} a b :=
    ⟨⟨h.coherent, h.delivered_subset i, h.delivered_subset j, h.summarizes i, h.summarizes j⟩,
      hthere, hback, ha, hb⟩
  have hown : ∀ l, w.NotAhead l (some (timestamp (w.replica l))) := by
    rintro l t ht δ - hr
    cases ht
    exact hr
  obtain ⟨⟨gone, came, frames, frames', taken, taken', hc⟩, hspent⟩ := hx.onCourse hk hm hn
  -- the ends of both sides, once what each has been sent is what it lacked
  have hjoin : (∀ δ, δ ∈ gone.flatten ↔ δ ∈ pending a b) →
      timestamp (mergeAll b gone.flatten).1 = Lattice.join (timestamp a) (timestamp b) :=
    h.timestamp_exchange (hown j)
  have hequal : (∀ δ, δ ∈ gone.flatten ↔ δ ∈ pending a b) →
      (∀ δ, δ ∈ came.flatten ↔ δ ∈ pending b a) →
      (mergeAll b gone.flatten).1 = (mergeAll a came.flatten).1 :=
    h.exchange_comm (hown j) (hown i)
  refine ⟨hspent ▸ hc.spent_le hm hn, hc.exists_move, fun r hr => ?_, fun r hr => ?_,
    fun hl hr => ?_⟩
  · obtain ⟨hreport, hstate, hgone, hcame⟩ := hc.report hm hn hr
    exact ⟨hreport, by rw [hstate, ← hequal hgone hcame, hjoin hgone]⟩
  · obtain ⟨hreport, hstate, hcame, hgone⟩ := hc.swap.report hn hm hr
    exact ⟨hreport, by rw [show x.right.state = _ from hstate, hjoin hgone]⟩
  · obtain ⟨r, hl⟩ := Option.ne_none_iff_exists'.mp hl
    obtain ⟨r', hr⟩ := Option.ne_none_iff_exists'.mp hr
    obtain ⟨-, hstate, hgone, hcame⟩ := hc.report hm hn hl
    obtain ⟨-, hstate', -, -⟩ := hc.swap.report hn hm hr
    rw [hstate, show x.right.state = _ from hstate', hequal hgone hcame]

abbrev setsByName : Family := .orMap String (.orSet String)

/-- Two replicas add an item each under the same key, and one of them another item. -/
def additionsOnBothSides : List (Event Bool setsByName.Operation setsByName.Timestamp) :=
  [.operate false (OrMapOperation.mutate "k" [OrSetOperation.add "x", OrSetOperation.add "y"]),
    .operate true (OrMapOperation.mutate "k" [OrSetOperation.add "z"])]

def addedBothSides : World Bool setsByName.State setsByName.Delta :=
  run twoActors additionsOnBothSides

lemma travels_of_addedBothSides {i : Bool} {δ : setsByName.Delta}
    (hδ : δ ∈ deltasSince (addedBothSides.replica i) none) : LawfulWire.Travels [δ] := by
  have hsmall : 1 < word64 ∧ 2 < word64 := by decide
  have hdeltas : ∀ δ ∈ [OrMapDelta.add "k" ⟨"a", 1⟩, .value "k" (OrSetDelta.add ⟨"a", 1⟩ "x"),
      .value "k" (OrSetDelta.add ⟨"a", 2⟩ "y"), .add "k" ⟨"b", 1⟩,
      .value "k" (OrSetDelta.add ⟨"b", 1⟩ "z")], LawfulWire.Fits δ := by
    simp only [List.forall_mem_cons]
    exact ⟨⟨trivial, hsmall.1⟩, ⟨trivial, hsmall.1, trivial⟩, ⟨trivial, hsmall.2, trivial⟩,
      ⟨trivial, hsmall.1⟩, ⟨trivial, hsmall.1, trivial⟩, by simp⟩
  have hsound : Sound twoActors addedBothSides := sound_run twoActors additionsOnBothSides
  have hfits : LawfulWire.Fits δ := hdeltas δ (hsound.delivered_subset i
    (Convergent.mem_of_mem_deltasSince (hsound.summarizes i) hδ))
  exact .of_depth (List.forall_mem_singleton.mpr hfits) (by decide)

lemma travels_timestamp_addedBothSides (i : Bool) :
    LawfulWire.Travels (timestamp (addedBothSides.replica i)) := by
  let t (i : Bool) : MapTimestamp String CausalContext := timestamp (addedBothSides.replica i)
  have hkeys : ∀ i, LawfulWire.Fits (t i).keys := by
    simp only [LawfulWire.fits_context_iff]
    decide +kernel
  have hdots : ∀ i, ∀ e ∈ (t i).values.entries,
      (∀ f ∈ e.2.frontier.entries, f.2 < word64) ∧
        ∀ d ∈ e.2.cloud.toList, d.counter < word64 := by
    decide +kernel
  have hvalues : LawfulWire.FitsEntries (t i).values := LawfulWire.fitsEntries_iff.mpr fun e he =>
    ⟨trivial, LawfulWire.fits_context_iff.mpr (hdots i e he)⟩
  exact .of_depth (⟨hkeys i, hvalues⟩ : LawfulWire.Fits (t i)) (by decide)

/-- The two replicas are equal after two batches in one direction and one in the other. -/
theorem equal_after_three_batches :
    let x : Duplex setsByName.State setsByName.Timestamp _ _ := Duplex.connect
      (.start (addedBothSides.replica false) 2) (.start (addedBothSides.replica true) 2) 1
    x.run.left.outcome? =
        some (.ok ⟨2, 1, .updated, Encoded.timestampOf (addedBothSides.replica true)⟩) ∧
      x.run.left.state = x.run.right.state := by
  intro x
  have hthere : (pending (addedBothSides.replica false) (addedBothSides.replica true)).length ⌈/⌉ 2
      = 2 := by decide +kernel
  have hback : (pending (addedBothSides.replica true) (addedBothSides.replica false)).length ⌈/⌉ 2
      = 1 := by decide +kernel
  obtain ⟨k, hx, hend⟩ : ∃ k, After x k x.run ∧ (k = x.moveBound ∨ Stuck x.run) :=
    exists_after_runWithin _ _
  have h := exchange_under_any_schedule setsByName twoActors additionsOnBothSides false true
    Nat.two_pos Nat.two_pos (fun _ hδ => travels_of_addedBothSides (Kin.mem_pending.mp hδ).1)
    (fun _ hδ => travels_of_addedBothSides (Kin.mem_pending.mp hδ).1)
    (travels_timestamp_addedBothSides false) (travels_timestamp_addedBothSides true) hx
  rw [← addedBothSides, hthere, hback] at h
  obtain ⟨hbound, hmove, hleft, -, hequal⟩ := h
  have hstuck : Stuck x.run := by
    refine hend.resolve_left fun hfuel => ?_
    have hallowed : x.moveBound = 48 := by decide +kernel
    omega
  have hended : x.run.left.outcome? ≠ none ∧ x.run.right.outcome? ≠ none := by
    rw [← not_or]
    intro hopen
    obtain ⟨side, m, y, hy⟩ := hmove hopen
    rw [hstuck side m] at hy
    cases hy
  obtain ⟨r, hr⟩ := Option.ne_none_iff_exists'.mp hended.1
  obtain ⟨⟨result, rfl, hresult⟩, -⟩ := hleft r hr
  rw [hresult.mpr Nat.one_pos] at hr
  exact ⟨hr, hequal hended.1 hended.2⟩

def deepSets : World Bool ((CrdtType.orSet .string).inMaps 42).State
    ((CrdtType.orSet .string).inMaps 42).Delta :=
  let op := CrdtType.within CrdtType.addition 42
  run twoActors ([.operate false op, .operate true op] :
    List (Event Bool _ ((CrdtType.orSet .string).inMaps 42).Timestamp))

/-- They fail to read each other's timestamps and stay different; and a queue for `2 ^ 61` frames is
refused whatever the replicas are. -/
theorem deep_sets_stay_apart :
    let x : Duplex ((CrdtType.orSet .string).inMaps 42).State _ _ _ := Duplex.connect
      (.start (deepSets.replica false) 1) (.start (deepSets.replica true) 1) 1
    (∃ e, x.run.left.outcome? = some (.error e)) ∧
      (∃ e, x.run.right.outcome? = some (.error e)) ∧
      x.run.left.state ≠ x.run.right.state ∧ checkCapacity (2 ^ 61) = .error .queueTooLarge := by
  intro x
  have hrun := run_of_undecodable (a := deepSets.replica false) (b := deepSets.replica true)
    (m := 1) (n := 1) 1 (CrdtType.decode_timestamp_addedWithin "a" (le_refl 42))
    (CrdtType.decode_timestamp_addedWithin "b" (le_refl 42))
  rw [show x.run = _ from hrun]
  refine ⟨⟨_, rfl⟩, ⟨_, rfl⟩, fun heq => ?_, by decide⟩
  have hcontexts := congrArg
    (OrMap.context (K := String) (V := ((CrdtType.orSet .string).inMaps 41).State)) heq
  have happart : CausalContext.empty.insert ⟨"a", 1⟩ ≠ CausalContext.empty.insert ⟨"b", 1⟩ := by
    decide +kernel
  exact happart hcontexts

end

end DeltaRing.Exchange
