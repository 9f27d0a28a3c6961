import DeltaRing.Exchange.Duplex
import DeltaRing.Proofs.Exchange.Stream
import DeltaRing.Proofs.Wire.Lawful

/-!
One side of an exchange.

What a side sends is fixed by the two opening states: its timestamp, the batches that its pending
deltas are cut into, and `done`. What it has become is fixed by how much it has taken of what the
peer sends. Each of its moves brings it one step further in this, in whatever order they come.
-/

namespace DeltaRing.Exchange

/-! ### How many moves have been taken -/

/-- How many moves a direction has taken since the peer's timestamp came. -/
def Outgoing.spent {T : Type} : Outgoing T → Nat
  | .streaming _ sent waiting => 2 * sent + waiting.toList.length
  | .ended outcome => outcome.toOption.elim 0 fun sent => 2 * sent + 2

def Incoming.spent : Incoming → Nat
  | .merging received _ => received
  | .ended outcome => outcome.toOption.elim 0 fun p => p.1 + 1

def Half.spent {S T : Type} (h : Half S T) : Nat :=
  match h.phase with
  | .opening => 0
  | .greeting => 1
  | .running _ out inc => 2 + out.spent + inc.spent
  | .refused _ => 0

variable {S D T : Type} [CausalTimestamp T D] [DeltaCrdt S D T] [Wire D] [Wire T]

/-! ### What a side can do -/

/-- Every move makes a batch, sends a frame, finds no reader, reads a frame or learns that none
will come. -/
lemma Half.move?_cases {h h' : Half S T} {ch ch' : Half.Channel} {m : Move}
    (hmove : h.move? ch m = some (h', ch')) :
    (h.prepare? = some h' ∧ ch' = ch) ∨
    (∃ f, h.offered? = some f ∧ ch.peerListening = true ∧ h' = h.afterSending ∧
      ch' = { ch with outbox := ch.outbox ++ [f] }) ∨
    (∃ f, h.offered? = some f ∧ ch.peerListening = false ∧ h' = h.afterRefusal ∧ ch' = ch) ∨
    (h.isWaiting = true ∧ ∃ f rest, ch.inbox = f :: rest ∧ h' = h.hear f ∧
      ch' = { ch with inbox := rest }) ∨
    (h.isWaiting = true ∧ ch.inbox = [] ∧ ch.peerSending = false ∧ h' = h.hearNothing ∧
      ch' = ch) := by
  cases m with
  | prepare =>
    simp only [Half.move?, Option.map_eq_some_iff, Prod.mk.injEq] at hmove
    obtain ⟨h, hprepare, rfl, rfl⟩ := hmove
    exact .inl ⟨hprepare, rfl⟩
  | send =>
    cases hoffer : h.offered? with
    | none => simp [Half.move?, hoffer] at hmove
    | some f =>
      cases hlistening : ch.peerListening with
      | false =>
        simp only [Half.move?, hoffer, hlistening, Option.bind_eq_bind, Option.bind_some,
          Bool.not_false, if_true, Option.pure_def, Option.some.injEq, Prod.mk.injEq] at hmove
        obtain ⟨rfl, rfl⟩ := hmove
        exact .inr (.inr (.inl ⟨f, rfl, rfl, rfl, rfl⟩))
      | true =>
        simp only [Half.move?, hoffer, hlistening, Option.bind_eq_bind, Option.bind_some,
          Bool.not_true, Bool.false_eq_true, if_false, Option.ite_none_right_eq_some,
          Option.pure_def, Option.some.injEq, Prod.mk.injEq] at hmove
        obtain ⟨-, rfl, rfl⟩ := hmove
        exact .inr (.inl ⟨f, rfl, rfl, rfl, rfl⟩)
  | receive =>
    cases hwaiting : h.isWaiting with
    | false => simp [Half.move?, hwaiting] at hmove
    | true =>
      cases hinbox : ch.inbox with
      | cons f rest =>
        simp only [Half.move?, hwaiting, hinbox, Bool.not_true, Bool.false_eq_true, if_false,
          Option.some.injEq, Prod.mk.injEq] at hmove
        obtain ⟨rfl, rfl⟩ := hmove
        exact .inr (.inr (.inr (.inl ⟨rfl, f, rest, rfl, rfl, rfl⟩)))
      | nil =>
        cases hsending : ch.peerSending with
        | true => simp [Half.move?, hwaiting, hinbox, hsending] at hmove
        | false =>
          simp only [Half.move?, hwaiting, hinbox, hsending, Bool.not_true, Bool.false_eq_true,
            if_false, Option.some.injEq, Prod.mk.injEq] at hmove
          obtain ⟨rfl, rfl⟩ := hmove
          exact .inr (.inr (.inr (.inr ⟨rfl, rfl, rfl, rfl, rfl⟩)))

/-! ### One direction -/

section

variable (a b : S)

def opened (gone : List (List D)) : List Frame :=
  .timestamp (Encoded.timestampOf a) :: gone.map fun batch => .deltas (Wire.encode batch)

/-- The frame that waits for room when some batches have been made and some of them are gone. -/
inductive Waits (gone : List (List D)) : List (List D) → Option Frame → Prop
  | nothing : Waits gone gone none
  | batch (c : List D) : Waits gone (gone ++ [c]) (some (.deltas (Wire.encode c)))
  | done : gone.flatten.length = (pending a b).length → Waits gone gone (some .done)

/-- How far a side has come in sending: the batches that are gone, and all frames. -/
inductive Sending (h : Half S T) : List (List D) → List Frame → Prop
  | opening : h.phase = .opening → Sending h [] []
  | greeting : h.phase = .greeting → Sending h [] (opened a [])
  | streaming {peer : Payload} {gone made : List (List D)} {waiting : Option Frame}
    {inc : Incoming} :
    h.phase = .running peer
      (.streaming (observeAll (timestamp b) made.flatten) gone.length waiting) inc →
    Cut (pending a b) h.batchSize made → Waits a b gone made waiting →
    Sending h gone (opened a gone)
  | ended {peer : Payload} {gone : List (List D)} {inc : Incoming} :
    h.phase = .running peer (.ended (.ok gone.length)) inc → Cut (pending a b) h.batchSize gone →
    gone.flatten.length = (pending a b).length → Sending h gone (opened a gone ++ [.done])

inductive Receiving (h : Half S T) (came : List (List D)) : Nat → Prop
  | before : h.phase = .opening ∨ h.phase = .greeting → h.state = a → Receiving h came 0
  | merging {out : Outgoing T} {n : Nat} {result : MergeResult} :
    h.phase = .running (Encoded.timestampOf b) out (.merging n result) → n ≤ came.length →
    h.state = (mergeAll a (came.take n).flatten).1 → (result = .updated ↔ 0 < n) →
    Receiving h came (n + 1)
  | ended {out : Outgoing T} {result : MergeResult} :
    h.phase = .running (Encoded.timestampOf b) out (.ended (.ok (came.length, result))) →
    h.state = (mergeAll a came.flatten).1 → (result = .updated ↔ 0 < came.length) →
    Receiving h came (came.length + 2)

end

variable {a b : S} {h h' : Half S T} {gone came : List (List D)} {frames : List Frame} {f : Frame}
  {taken : Nat}

omit [CausalTimestamp T D] in
@[simp] lemma length_opened : (opened a gone).length = gone.length + 1 := by simp [opened]

lemma Sending.isSending (hout : Sending a b h gone frames)
    (hlength : frames.length ≤ gone.length + 1) : h.isSending = true := by
  cases hout with
  | opening hphase => rw [Half.isSending, hphase]
  | greeting hphase => rw [Half.isSending, hphase]
  | streaming hphase _ _ => rw [Half.isSending, hphase]
  | ended _ _ _ =>
    rw [List.length_append, length_opened, List.length_singleton] at hlength
    omega

lemma Sending.opening_iff (hout : Sending a b h gone frames) :
    h.phase = .opening ↔ frames = [] := by
  cases hout with
  | opening hphase => simp [hphase]
  | greeting hphase => simp [hphase, opened]
  | streaming hphase _ _ => simp [hphase, opened]
  | ended hphase _ _ => simp [hphase]

/-- Who has sent more than its timestamp and its batches has sent all that was pending. -/
lemma Sending.complete (hout : Sending a b h gone frames)
    (hlength : gone.length + 1 < frames.length) :
    Cut (pending a b) h.batchSize gone ∧ gone.flatten.length = (pending a b).length := by
  cases hout with
  | ended _ hcut hall => exact ⟨hcut, hall⟩
  | opening _ => simp at hlength
  | greeting _ => simp at hlength
  | streaming _ _ _ => simp at hlength

lemma Sending.of_ended {peer : Payload} {outcome : Except ClusterError Nat} {inc : Incoming}
    (hout : Sending a b h gone frames) (hphase : h.phase = .running peer (.ended outcome) inc) :
    outcome = .ok gone.length ∧ Cut (pending a b) h.batchSize gone ∧
      gone.flatten.length = (pending a b).length := by
  cases hout with
  | opening hopening => simp [hphase] at hopening
  | greeting hgreeting => simp [hphase] at hgreeting
  | streaming hstreaming _ _ => simp [hphase] at hstreaming
  | ended hended hcut hall =>
    rw [hphase] at hended
    cases hended
    exact ⟨rfl, hcut, hall⟩

/-- What is gone is the beginning of what the pending deltas have been cut into. -/
lemma Sending.exists_cut (hout : Sending a b h gone frames) :
    ∃ made, gone <+: made ∧ Cut (pending a b) h.batchSize made := by
  cases hout with
  | opening _ => exact ⟨[], List.prefix_rfl, .nil⟩
  | greeting _ => exact ⟨[], List.prefix_rfl, .nil⟩
  | streaming _ hcut hwaits =>
    cases hwaits with
    | nothing => exact ⟨gone, List.prefix_rfl, hcut⟩
    | batch c => exact ⟨gone ++ [c], List.prefix_append _ _, hcut⟩
    | done _ => exact ⟨gone, List.prefix_rfl, hcut⟩
  | ended _ hcut _ => exact ⟨gone, List.prefix_rfl, hcut⟩

lemma Sending.subset (hout : Sending a b h gone frames) : ∀ δ ∈ gone.flatten, δ ∈ pending a b := by
  obtain ⟨made, ⟨rest, rfl⟩, hcut⟩ := hout.exists_cut
  exact fun δ hδ => hcut.subset δ (by simp [List.flatten_append, hδ])

lemma Sending.nodup (hout : Sending a b h gone frames) : gone.flatten.Nodup := by
  obtain ⟨made, ⟨rest, rfl⟩, hcut⟩ := hout.exists_cut
  have hnodup := hcut.nodup
  rw [List.flatten_append] at hnodup
  exact hnodup.of_append_left

lemma Sending.nonempty (hout : Sending a b h gone frames) : ∀ c ∈ gone, c ≠ [] := by
  obtain ⟨made, hbegin, hcut⟩ := hout.exists_cut
  exact fun c hc => hcut.nonempty c (hbegin.subset hc)

lemma Sending.length_le (hout : Sending a b h gone frames) (hsize : 0 < h.batchSize) :
    gone.length ≤ (pending a b).length ⌈/⌉ h.batchSize := by
  obtain ⟨made, hbegin, hcut⟩ := hout.exists_cut
  exact hbegin.length_le.trans (hcut.length_le hsize)

lemma Sending.eq_timestamp (hout : Sending a b h gone frames) (hf : frames[0]? = some f) :
    f = .timestamp (Encoded.timestampOf a) := by
  cases hout <;> simp_all [opened]

lemma Sending.frame_cases (hout : Sending a b h gone frames) {n : Nat}
    (hf : frames[n + 1]? = some f) :
    (∃ c, gone[n]? = some c ∧ f = .deltas (Wire.encode c)) ∨ n = gone.length ∧ f = .done := by
  cases hout with
  | opening _ => simp at hf
  | greeting _ => simp [opened] at hf
  | streaming _ _ _ =>
    simp only [opened, List.getElem?_cons_succ, List.getElem?_map, Option.map_eq_some_iff] at hf
    obtain ⟨c, hc, rfl⟩ := hf
    exact .inl ⟨c, hc, rfl⟩
  | ended _ _ _ =>
    rcases Nat.lt_trichotomy n gone.length with hn | rfl | hn
    · refine .inl ⟨gone[n], List.getElem?_eq_getElem hn, ?_⟩
      rw [List.getElem?_append_left (by simpa using hn), opened, List.getElem?_cons_succ,
        List.getElem?_map, List.getElem?_eq_getElem hn] at hf
      exact (Option.some.inj hf).symm
    · simp [opened] at hf
      exact .inr ⟨rfl, hf.symm⟩
    · rw [List.getElem?_eq_none (by simp; omega)] at hf
      cases hf

/-- What a side has sent does not depend on what it takes. -/
lemma Sending.of_phase {peer : Payload} {out : Outgoing T} {inc inc' : Incoming}
    (hout : Sending a b h gone frames) (hphase : h.phase = .running peer out inc)
    (hphase' : h'.phase = .running peer out inc') (hsize : h'.batchSize = h.batchSize) :
    Sending a b h' gone frames := by
  cases hout with
  | opening hopening => simp [hphase] at hopening
  | greeting hgreeting => simp [hphase] at hgreeting
  | streaming hstreaming hcut hwaits =>
    rw [hphase] at hstreaming
    cases hstreaming
    exact .streaming hphase' (hsize ▸ hcut) hwaits
  | ended hended hcut hall =>
    rw [hphase] at hended
    cases hended
    exact .ended hphase' (hsize ▸ hcut) hall

omit [CausalTimestamp T D] [Wire D] in
lemma Receiving.of_phase {peer : Payload} {out out' : Outgoing T} {inc : Incoming}
    (hin : Receiving a b h came taken) (hphase : h.phase = .running peer out inc)
    (hphase' : h'.phase = .running peer out' inc) (hstate : h'.state = h.state) :
    Receiving a b h' came taken := by
  cases hin with
  | before hbefore _ => simp [hphase] at hbefore
  | merging hmerging hn hmerged hresult =>
    rw [hphase] at hmerging
    cases hmerging
    exact .merging hphase' hn (hstate.trans hmerged) hresult
  | ended hended hmerged hresult =>
    rw [hphase] at hended
    cases hended
    exact .ended hphase' (hstate.trans hmerged) hresult

omit [CausalTimestamp T D] [Wire D] in
lemma Receiving.isListening (hin : Receiving a b h came taken) (htaken : taken ≤ came.length + 1) :
    h.isListening = true := by
  cases hin with
  | before hphase _ => rcases hphase with hphase | hphase <;> rw [Half.isListening, hphase]
  | merging hphase _ _ _ => rw [Half.isListening, hphase]
  | ended _ _ _ => omega

omit [CausalTimestamp T D] [Wire D] in
lemma Receiving.taken_le (hin : Receiving a b h came taken) (hwaiting : h.isWaiting = true) :
    taken ≤ came.length + 1 := by
  cases hin with
  | before _ _ => exact Nat.zero_le _
  | merging _ hn _ _ => exact Nat.succ_le_succ hn
  | ended hphase _ _ => simp [Half.isWaiting, hphase] at hwaiting

omit [CausalTimestamp T D] [Wire D] in
/-- Another batch of the peer makes no difference before it is taken. -/
lemma Receiving.append (hin : Receiving a b h came taken) (htaken : taken ≤ came.length + 1)
    (c : List D) : Receiving a b h (came ++ [c]) taken := by
  cases hin with
  | before hphase hstate => exact .before hphase hstate
  | merging hphase hn hstate hresult =>
    refine .merging hphase (by simp; omega) ?_ hresult
    rwa [List.take_append_of_le_length hn]
  | ended _ _ _ => omega

/-! ### Moves of one side -/

/-- A side has sent frames with the batches `gone`, and has taken some of the frames of a peer that
sends the batches `came`. -/
structure Party (a b : S) (size : Nat) (h : Half S T) (gone : List (List D)) (frames : List Frame)
    (came : List (List D)) (taken : Nat) : Prop where
  sending : Sending a b h gone frames
  receiving : Receiving a b h came taken
  batchSize : h.batchSize = size

variable {size : Nat}

omit [CausalTimestamp T D] [DeltaCrdt S D T] [Wire D] [Wire T] in
lemma Half.spent_running {peer : Payload} {out : Outgoing T} {inc : Incoming}
    (hphase : h.phase = .running peer out inc) : h.spent = 2 + out.spent + inc.spent := by
  rw [Half.spent, hphase]

/-- How many moves what a side has sent and taken can have cost. -/
lemma Party.spent_le (hp : Party a b size h gone frames came taken) :
    h.spent ≤ 2 * gone.length + came.length + 5 := by
  have hin : ∀ {peer : Payload} {out : Outgoing T} {inc : Incoming},
      h.phase = .running peer out inc → inc.spent ≤ came.length + 1 := fun hphase => by
    cases hp.receiving with
    | before hbefore _ => simp [hphase] at hbefore
    | merging hmerging hn _ _ =>
      rw [hphase] at hmerging
      cases hmerging
      exact Nat.le_succ_of_le hn
    | ended hended _ _ =>
      rw [hphase] at hended
      cases hended
      exact le_rfl
  cases hp.sending with
  | opening hphase => simp [Half.spent, hphase]
  | greeting hphase => simp [Half.spent, hphase]
  | @streaming _ _ _ waiting _ hphase _ _ =>
    have hwaiting : waiting.toList.length ≤ 1 := Option.length_toList_le
    have := hin hphase
    rw [Half.spent_running hphase, Outgoing.spent]
    omega
  | ended hphase _ _ =>
    have := hin hphase
    rw [Half.spent_running hphase]
    simp only [Outgoing.spent, Except.toOption, Option.elim_some]
    omega

lemma Party.length_frames_le (hp : Party a b size h gone frames came taken)
    (hoffer : h.offered? = some f) : frames.length ≤ gone.length + 1 := by
  cases hp.sending with
  | opening _ => simp
  | greeting _ => simp
  | streaming _ _ _ => simp
  | ended hphase _ _ => simp [Half.offered?, hphase] at hoffer

omit [CausalTimestamp T D] [DeltaCrdt S D T] [Wire D] [Wire T] in
@[simp] lemma state_afterSending (h : Half S T) : h.afterSending.state = h.state := by
  rw [Half.afterSending]
  split <;> rfl

omit [CausalTimestamp T D] [DeltaCrdt S D T] [Wire D] [Wire T] in
lemma state_afterRefusal (h : Half S T) : h.afterRefusal.state = h.state := by
  unfold Half.afterRefusal
  split <;> rfl

omit [CausalTimestamp T D] [DeltaCrdt S D T] [Wire D] [Wire T] in
lemma state_hearNothing (h : Half S T) : h.hearNothing.state = h.state := by
  unfold Half.hearNothing
  split <;> rfl

omit [CausalTimestamp T D] [DeltaCrdt S D T] [Wire D] [Wire T] in
@[simp] lemma batchSize_afterSending (h : Half S T) : h.afterSending.batchSize = h.batchSize := by
  rw [Half.afterSending]
  split <;> rfl

lemma Party.send (hp : Party a b size h gone frames came taken) (hoffer : h.offered? = some f) :
    ∃ gone', (gone' = gone ∨ ∃ c, gone' = gone ++ [c]) ∧
      Party a b size h.afterSending gone' (frames ++ [f]) came taken ∧
      h.afterSending.spent = h.spent + 1 := by
  obtain ⟨hout, hin, rfl⟩ := hp
  have hstate := state_afterSending h
  have hsize := batchSize_afterSending h
  cases hout with
  | opening hphase =>
    have hafter : h.afterSending.phase = .greeting := by simp [Half.afterSending, hphase]
    cases hin with
    | merging hmerging _ _ _ => simp [hphase] at hmerging
    | ended hended _ _ => simp [hphase] at hended
    | before _ hstart =>
      simp only [Half.offered?, hphase, Option.some.injEq, hstart] at hoffer
      subst hoffer
      exact ⟨[], .inl rfl, ⟨.greeting hafter, .before (.inr hafter) (hstate.trans hstart), hsize⟩,
        by simp [Half.spent, hphase, hafter]⟩
  | greeting hphase => simp [Half.offered?, hphase] at hoffer
  | ended hphase _ _ => simp [Half.offered?, hphase] at hoffer
  | @streaming peer _ made waiting inc hphase hcut hwaits =>
    simp only [Half.offered?, hphase] at hoffer
    subst hoffer
    cases hwaits with
    | batch c =>
      have hafter : h.afterSending.phase = .running peer (.streaming
          (observeAll (timestamp b) (gone ++ [c]).flatten) (gone ++ [c]).length none) inc := by
        simp [Half.afterSending, hphase]
      have hsent : opened a gone ++ [.deltas (Wire.encode c)] = opened a (gone ++ [c]) := by
        simp [opened]
      refine ⟨gone ++ [c], .inr ⟨c, rfl⟩, ⟨?_, hin.of_phase hphase hafter hstate, hsize⟩, ?_⟩
      · rw [hsent]
        exact .streaming hafter (hsize ▸ hcut) .nothing
      · rw [Half.spent_running hphase, Half.spent_running hafter]
        simp only [Outgoing.spent, Option.toList_none, Option.toList_some, List.length_append,
          List.length_nil, List.length_singleton]
        omega
    | done hall =>
      have hafter : h.afterSending.phase = .running peer (.ended (.ok gone.length)) inc := by
        simp [Half.afterSending, hphase]
      refine ⟨gone, .inl rfl, ⟨.ended hafter (hsize ▸ hcut) hall,
        hin.of_phase hphase hafter hstate, hsize⟩, ?_⟩
      rw [Half.spent_running hphase, Half.spent_running hafter]
      simp only [Outgoing.spent, Option.toList_some, List.length_singleton, Except.toOption,
        Option.elim_some]
      omega

omit [CausalTimestamp T D] [Wire D] in
lemma Receiving.of_merged {P : S → Prop} (hin : Receiving a b h came taken)
    (hP : ∀ l : List D, (∀ δ ∈ l, δ ∈ came.flatten) → P (mergeAll a l).1) : P h.state := by
  cases hin with
  | before _ hstate => exact hstate ▸ hP [] (by simp)
  | merging _ _ hstate _ =>
    rw [hstate]
    refine hP _ fun δ hδ => ?_
    obtain ⟨c, hc, hδ⟩ := List.mem_flatten.mp hδ
    exact List.mem_flatten.mpr ⟨c, List.mem_of_mem_take hc, hδ⟩
  | ended _ hstate _ => exact hstate ▸ hP _ fun _ => id

/-- Every move of a side goes as planned: it goes on cutting the batches for the peer although it
has merged some of the peer's deltas, and it can read what the peer sends. -/
structure Follows (a b : S) : Prop where
  cut {l : List D} {made : List (List D)} {batch : List D} {cursor : T} {size : Nat} :
    (∀ δ ∈ l, δ ∈ pending b a) → 0 < size → Cut (pending a b) size made →
    nextBatch (mergeAll a l).1 (observeAll (timestamp b) made.flatten) size = (batch, cursor) →
    cursor = observeAll (timestamp b) (made.flatten ++ batch) ∧
      (batch = [] → made.flatten.length = (pending a b).length) ∧
      (batch ≠ [] → Cut (pending a b) size (made ++ [batch]))
  greeting : Wire.decode (Encoded.timestampOf b) = .ok (timestamp b)
  /-- A batch that comes is merged as a whole, and is news. -/
  batch {came : List (List D)} {n : Nat} {c : List D} : came[n]? = some c → c ≠ [] →
    (∀ δ ∈ came.flatten, δ ∈ pending b a) → came.flatten.Nodup →
    Encoded.merge (mergeAll a (came.take n).flatten).1 (Wire.encode c) =
      .ok ((mergeAll a (came.take (n + 1)).flatten).1, .updated)

/-- The next batch is cut from what is pending, although the peer's deltas have been merged. -/
lemma Party.prepare (hf : Follows a b) (hp : Party a b size h gone frames came taken)
    (hcame : ∀ δ ∈ came.flatten, δ ∈ pending b a) (hsize : 0 < size)
    (hprepare : h.prepare? = some h') :
    Party a b size h' gone frames came taken ∧ h'.spent = h.spent + 1 := by
  obtain ⟨hout, hin, rfl⟩ := hp
  cases hout with
  | opening hphase => simp [Half.prepare?, hphase] at hprepare
  | greeting hphase => simp [Half.prepare?, hphase] at hprepare
  | ended hphase _ _ => simp [Half.prepare?, hphase] at hprepare
  | @streaming peer gone made waiting inc hphase hcut hwaits =>
    cases hwaits with
    | batch c => simp [Half.prepare?, hphase] at hprepare
    | done _ => simp [Half.prepare?, hphase] at hprepare
    | nothing =>
      rcases hnext : nextBatch h.state (observeAll (timestamp b) gone.flatten) h.batchSize with
        ⟨batch, cursor⟩
      obtain ⟨rfl, hdone, hbatch⟩ := hin.of_merged
        (P := fun s => nextBatch s (observeAll (timestamp b) gone.flatten) h.batchSize =
          (batch, cursor) → _)
        (fun l hl => hf.cut (fun δ hδ => hcame δ (hl δ hδ)) hsize hcut) hnext
      simp only [Half.prepare?, hphase, hnext, Option.some.injEq] at hprepare
      subst hprepare
      refine ⟨⟨?_, hin.of_phase hphase rfl rfl, rfl⟩, ?_⟩
      · cases batch with
        | nil =>
          rw [List.append_nil]
          exact .streaming rfl hcut (.done (hdone rfl))
        | cons δ batch =>
          rw [← List.flatten_concat]
          exact .streaming rfl (hbatch (List.cons_ne_nil δ batch)) (.batch (δ :: batch))
      · rw [Half.spent_running hphase, Half.spent_running rfl]
        simp only [Outgoing.spent, Option.toList_none, Option.toList_some, List.length_nil,
          List.length_singleton]
        omega

variable {p : Half S T} {sent : List Frame}

/-- A frame that comes is understood: it is the peer's timestamp, a batch or `done`. -/
lemma Party.hear (hfollows : Follows a b) (hp : Party a b size h gone frames came taken)
    (hpeer : Sending b a p came sent) (hf : sent[taken]? = some f) (hwaiting : h.isWaiting = true) :
    Party a b size (h.hear f) gone frames came (taken + 1) ∧ (h.hear f).spent = h.spent + 1 := by
  obtain ⟨hout, hin, rfl⟩ := hp
  cases hin with
  | before hphase hstate =>
    rcases hphase with hphase | hphase
    · simp [Half.isWaiting, hphase] at hwaiting
    · obtain rfl := hpeer.eq_timestamp hf
      have hhear : h.hear (.timestamp (Encoded.timestampOf b)) =
          { h with
            phase := .running (Encoded.timestampOf b) (.streaming (timestamp b) 0 none)
              (.merging 0 .unchanged) } := by
        simp [Half.hear, hphase, hfollows.greeting]
      rw [hhear]
      refine ⟨⟨?_, .merging rfl (Nat.zero_le _) hstate (by simp), rfl⟩, ?_⟩
      · cases hout with
        | greeting _ => exact .streaming rfl .nil .nothing
        | opening hopening => simp [hphase] at hopening
        | streaming hstreaming _ _ => simp [hphase] at hstreaming
        | ended hended _ _ => simp [hphase] at hended
      · simp [Half.spent, hphase, Outgoing.spent, Incoming.spent]
  | ended hphase _ _ => simp [Half.isWaiting, hphase] at hwaiting
  | @merging out n result hphase hn hstate hresult =>
    rcases hpeer.frame_cases hf with ⟨c, hc, rfl⟩ | ⟨rfl, rfl⟩
    · have hmerge := hfollows.batch hc (hpeer.nonempty c (List.mem_of_getElem? hc)) hpeer.subset
        hpeer.nodup
      rw [← hstate] at hmerge
      have hhear : h.hear (.deltas (Wire.encode c)) =
          { h with
            state := (mergeAll a (came.take (n + 1)).flatten).1
            phase := .running (Encoded.timestampOf b) out (.merging (n + 1) .updated) } := by
        simp only [Half.hear, hphase, hmerge]
        cases result <;> rfl
      rw [hhear]
      have hlength : n < came.length := (List.getElem?_eq_some_iff.mp hc).1
      refine ⟨⟨hout.of_phase hphase rfl rfl, .merging rfl hlength rfl (by simp), rfl⟩, ?_⟩
      rw [Half.spent_running hphase, Half.spent_running rfl]
      rfl
    · have hhear : h.hear .done =
          { h with
            phase := .running (Encoded.timestampOf b) out
              (.ended (.ok (came.length, result))) } := by
        simp [Half.hear, hphase]
      rw [hhear]
      refine ⟨⟨hout.of_phase hphase rfl rfl, .ended rfl (by simpa using hstate) hresult, rfl⟩, ?_⟩
      rw [Half.spent_running hphase, Half.spent_running rfl]
      rfl

/-! ### Who follows an exchange -/

structure Level (a b : S) : Prop where
  there : pending a b = []
  back : pending b a = []
  greeting : Wire.decode (Encoded.timestampOf a) = .ok (timestamp a)
  greeting' : Wire.decode (Encoded.timestampOf b) = .ok (timestamp b)

omit [CausalTimestamp T D] [Wire D] in
lemma Level.symm (hl : Level a b) : Level b a := ⟨hl.back, hl.there, hl.greeting', hl.greeting⟩

lemma Level.follows (hl : Level a b) : Follows a b where
  cut {l made batch cursor size} hmerged _ hcut hnext := by
    have hnothing : ∀ l : List D, (∀ δ ∈ l, δ ∈ ([] : List D)) → l = [] := fun _ =>
      List.eq_nil_iff_forall_not_mem.mpr ∘ fun h δ hδ => absurd (h δ hδ) List.not_mem_nil
    obtain rfl := hnothing l (hl.back ▸ hmerged)
    have hmade := hnothing made.flatten (hl.there ▸ hcut.subset)
    have hleft : deltasSince a (some (timestamp b)) = [] := hl.there
    rw [hmade, mergeAll_nil, nextBatch, observeAll, List.foldl_nil, hleft, List.take_nil] at hnext
    cases hnext
    exact ⟨by rw [hmade]; rfl, fun _ => by rw [hmade, hl.there], fun h => absurd rfl h⟩
  greeting := hl.greeting'
  batch {came n c} hc hne hcame _ := by
    rw [hl.back] at hcame
    refine absurd (List.eq_nil_iff_forall_not_mem.mpr fun δ hδ => ?_) hne
    exact List.not_mem_nil (hcame δ (List.mem_flatten.mpr ⟨c, List.mem_of_getElem? hc, hδ⟩))

variable [Authored D] [Summary S D] [Convergent S] [Listing S] [LawfulWire D] [LawfulWire T]
  {E X Y : Set D}

/-- Two replicas of one run, whose timestamps can be read back and so can the deltas that either has
to send. -/
structure Parley (E X Y : Set D) (a b : S) : Prop extends Kin E X Y a b where
  there : ∀ δ ∈ pending a b, LawfulWire.Travels [δ]
  back : ∀ δ ∈ pending b a, LawfulWire.Travels [δ]
  left_travels : LawfulWire.Travels (timestamp a)
  right_travels : LawfulWire.Travels (timestamp b)

omit [CausalTimestamp T D] [Convergent S] [Listing S] in
lemma Parley.symm (hk : Parley E X Y a b) : Parley E Y X b a :=
  ⟨hk.toKin.symm, hk.back, hk.there, hk.right_travels, hk.left_travels⟩

/-- A batch that comes is merged as a whole, and is news. -/
lemma Parley.merge_batch (hk : Parley E X Y a b) {n : Nat} {c : List D}
    (hc : came[n]? = some c) (hne : c ≠ []) (hcame : ∀ δ ∈ came.flatten, δ ∈ pending b a)
    (hnodup : came.flatten.Nodup) :
    Encoded.merge (mergeAll a (came.take n).flatten).1 (Wire.encode c) =
      .ok ((mergeAll a (came.take (n + 1)).flatten).1, .updated) := by
  have hflatten : (came.take (n + 1)).flatten = (came.take n).flatten ++ c := by
    rw [List.take_add_one, hc, Option.toList_some, List.flatten_concat]
  have hsplit : came.flatten = (came.take (n + 1)).flatten ++ (came.drop (n + 1)).flatten := by
    rw [← List.flatten_append, List.take_append_drop]
  have hpending : ∀ δ ∈ (came.take n).flatten ++ c, δ ∈ pending b a := fun δ hδ =>
    hcame δ (by rw [hsplit, hflatten]; exact List.mem_append_left _ hδ)
  have htravels : LawfulWire.Travels c := LawfulWire.travels_list fun δ hδ =>
    hk.back δ (hpending δ (List.mem_append_right _ hδ))
  have hupdated : (mergeAll (mergeAll a (came.take n).flatten).1 c).2 = .updated := by
    refine hk.symm.mergeAll_updated hpending ?_ hne
    rw [hsplit, hflatten] at hnodup
    exact hnodup.of_append_left
  rw [Encoded.merge, htravels.decode_encode, hflatten, mergeAll_append, ← hupdated]
  rfl

/-- Replicas of one run follow an exchange, for each merges nothing but deltas of the other. -/
lemma Parley.follows (hk : Parley E X Y a b) : Follows a b where
  cut {l made batch cursor size} hmerged hsize hcut hnext := by
    have hsubset : {δ | δ ∈ l} ⊆ Y := fun δ hδ => hk.symm.mem_left (hmerged δ hδ)
    exact hk.cut_nextBatch hsubset (Convergent.summarizes_mergeAll hk.coherent hk.left_subset
      (hsubset.trans hk.right_subset) hk.left) hsize hcut hnext
  greeting := hk.right_travels.decode_encode
  batch := hk.merge_batch

end DeltaRing.Exchange
