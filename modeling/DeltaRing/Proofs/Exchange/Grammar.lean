import DeltaRing.Proofs.Exchange.LiveStream
import DeltaRing.Proofs.Exchange.Party

/-!
What frames say, and what a side makes of them.

A peer may send anything. A side takes its frames one by one, up to `done` or the first that is at
fault. What it has made of them depends on nothing else: not on what it sends, nor on how far it has
come with that.
-/

namespace DeltaRing.Exchange

/-! ### What the frames say -/

structure Verdict (D : Type) where
  /-- The deltas to merge. -/
  deltas : List D
  /-- What is wrong with the frame after them, if something is. -/
  complaint : Option ClusterError

section

variable (D T : Type) [Wire D] [Wire T]

/-- What to make of the frames after the timestamp: the batches count up to `done` or the first
frame that is at fault. -/
def heedBatches : List Frame → Verdict D
  | .deltas batch :: frames =>
    match (Wire.decode batch : Except ClusterError (List D)) with
    | .ok ds => ⟨ds ++ (heedBatches frames).deltas, (heedBatches frames).complaint⟩
    | .error e => ⟨[], some e⟩
  | .done :: _ => ⟨[], none⟩
  | .timestamp _ :: _ => ⟨[], some (.violation "second timestamp in one exchange")⟩
  | [] => ⟨[], some (.violation "peer closed before done")⟩

def heed : List Frame → Verdict D
  | .timestamp ts :: frames =>
    match (Wire.decode ts : Except ClusterError T) with
    | .ok _ => heedBatches D frames
    | .error e => ⟨[], some e⟩
  | frame :: _ => ⟨[], some (.violation ("expected timestamp, got " ++ frame.name))⟩
  | [] => ⟨[], some (.violation "peer closed before its timestamp")⟩

/-- The frames of an exchange: a timestamp that can be read, batches that can be read, and `done`.
Whatever comes after it does not matter. -/
def Grammatical (frames : List Frame) : Prop :=
  ∃ (ts : Payload) (batches : List Payload) (rest : List Frame),
    frames = .timestamp ts :: (batches.map .deltas ++ .done :: rest) ∧
      (∃ t : T, Wire.decode ts = .ok t) ∧
      ∀ batch ∈ batches, ∃ ds : List D, Wire.decode batch = .ok ds

end

section

variable {D T : Type} [Wire D] [Wire T] {frames read : List Frame} {e : ClusterError}

lemma serialization_of_decode {α : Type} [Wire α] {p : Payload}
    (h : (Wire.decode p : Except ClusterError α) = .error e) :
    ∃ detail, e = .serialization detail := by
  rw [Wire.decode] at h
  split at h
  · cases h
  · exact ⟨_, (Except.error.inj h).symm⟩

lemma heedBatches_complaint_cases (h : (heedBatches D frames).complaint = some e) :
    (∃ detail, e = .violation detail) ∨ ∃ detail, e = .serialization detail := by
  induction frames with
  | nil => exact .inl ⟨_, (Option.some.inj h).symm⟩
  | cons frame frames ih =>
    cases frame with
    | timestamp ts => exact .inl ⟨_, (Option.some.inj h).symm⟩
    | done => cases h
    | deltas batch =>
      rw [heedBatches] at h
      split at h
      · exact ih h
      · rename_i hdecode
        obtain rfl := Option.some.inj h
        exact .inr (serialization_of_decode hdecode)

lemma heed_complaint_cases (h : (heed D T frames).complaint = some e) :
    (∃ detail, e = .violation detail) ∨ ∃ detail, e = .serialization detail := by
  cases frames with
  | nil => exact .inl ⟨_, (Option.some.inj h).symm⟩
  | cons frame frames =>
    cases frame with
    | deltas batch => exact .inl ⟨_, (Option.some.inj h).symm⟩
    | done => exact .inl ⟨_, (Option.some.inj h).symm⟩
    | timestamp ts =>
      rw [heed] at h
      split at h
      · exact heedBatches_complaint_cases h
      · rename_i hdecode
        obtain rfl := Option.some.inj h
        exact .inr (serialization_of_decode hdecode)

lemma heedBatches_complaint_eq_none_iff : (heedBatches D frames).complaint = none ↔
    ∃ (batches : List Payload) (rest : List Frame), frames = batches.map .deltas ++ .done :: rest ∧
      ∀ batch ∈ batches, ∃ ds : List D, Wire.decode batch = .ok ds := by
  constructor
  · intro h
    induction frames with
    | nil => cases h
    | cons frame frames ih =>
      cases frame with
      | timestamp ts => cases h
      | done => exact ⟨[], frames, rfl, by simp⟩
      | deltas batch =>
        rw [heedBatches] at h
        split at h
        · rename_i ds hdecode
          obtain ⟨batches, rest, rfl, hbatches⟩ := ih h
          exact ⟨batch :: batches, rest, rfl, List.forall_mem_cons.mpr ⟨⟨ds, hdecode⟩, hbatches⟩⟩
        · cases h
  · rintro ⟨batches, rest, rfl, hbatches⟩
    induction batches with
    | nil => rfl
    | cons batch batches ih =>
      obtain ⟨⟨ds, hdecode⟩, hbatches⟩ := List.forall_mem_cons.mp hbatches
      rw [List.map_cons, List.cons_append, heedBatches, hdecode]
      exact ih hbatches

/-- **Nothing is wrong with the frames of an exchange, and with no others.** -/
theorem heed_complaint_eq_none_iff :
    (heed D T frames).complaint = none ↔ Grammatical D T frames := by
  constructor
  · intro h
    cases frames with
    | nil => cases h
    | cons frame frames =>
      cases frame with
      | deltas batch => cases h
      | done => cases h
      | timestamp ts =>
        rw [heed] at h
        split at h
        · rename_i t hdecode
          obtain ⟨batches, rest, rfl, hbatches⟩ := heedBatches_complaint_eq_none_iff.mp h
          exact ⟨ts, batches, rest, rfl, ⟨t, hdecode⟩, hbatches⟩
        · cases h
  · rintro ⟨ts, batches, rest, rfl, ⟨t, hdecode⟩, hbatches⟩
    rw [heed, hdecode]
    exact heedBatches_complaint_eq_none_iff.mpr ⟨batches, rest, rfl, hbatches⟩

lemma heedBatches_deltas {batch : Payload} {ds : List D} (h : Wire.decode batch = .ok ds) :
    heedBatches D (.deltas batch :: frames) =
      ⟨ds ++ (heedBatches D frames).deltas, (heedBatches D frames).complaint⟩ := by
  rw [heedBatches, h]

variable (D T) in
/-- Nothing is wrong so far, and the next frame may be a batch. -/
def Expectant (read : List Frame) : Prop :=
  ∀ rest, heed D T (read ++ rest) =
    ⟨(heed D T read).deltas ++ (heedBatches D rest).deltas, (heedBatches D rest).complaint⟩

lemma expectant_timestamp {ts : Payload} {t : T} (h : Wire.decode ts = .ok t) :
    Expectant D T [.timestamp ts] := by
  intro rest
  rw [List.singleton_append, heed, heed, h]
  rfl

lemma Expectant.deltas_append (h : Expectant D T read) (rest : List Frame) :
    (heed D T (read ++ rest)).deltas =
      (heed D T read).deltas ++ (heedBatches D rest).deltas := by rw [h rest]

lemma Expectant.batch {batch : Payload} {ds : List D} (h : Expectant D T read)
    (hdecode : Wire.decode batch = .ok ds) : Expectant D T (read ++ [.deltas batch]) ∧
      (heed D T (read ++ [.deltas batch])).deltas = (heed D T read).deltas ++ ds := by
  have hdeltas : (heed D T (read ++ [.deltas batch])).deltas = (heed D T read).deltas ++ ds := by
    rw [h.deltas_append, heedBatches_deltas hdecode, heedBatches, List.append_nil]
  refine ⟨fun rest => ?_, hdeltas⟩
  rw [hdeltas, List.append_assoc, List.singleton_append, h, heedBatches_deltas hdecode,
    List.append_assoc]

end

/-! ### How far a side is from its end -/

section

variable {S D T : Type} [CausalTimestamp T D] [DeltaCrdt S D T] [Wire D] [Wire T]
  {h h' : Half S T} {frames read rest : List Frame} {f : Frame} {s : S}

omit [Wire T] in
lemma prepare?_cases (hprepare : h.prepare? = some h') : ∃ peer cursor sent inc,
    h.phase = .running peer (.streaming cursor sent none) inc ∧
    h' = { h with phase := .running peer (.streaming (nextBatch h.state cursor h.batchSize).2 sent
      (some (if (nextBatch h.state cursor h.batchSize).1.isEmpty then .done
        else .deltas (Wire.encode (nextBatch h.state cursor h.batchSize).1)))) inc } := by
  rw [Half.prepare?] at hprepare
  split at hprepare
  · rename_i peer cursor sent inc hphase
    exact ⟨peer, cursor, sent, inc, hphase, (Option.some.inj hprepare).symm⟩
  · cases hprepare

omit [CausalTimestamp T D] [Wire D] in
lemma offered?_cases (hoffer : h.offered? = some f) :
    (h.phase = .opening ∧ h.afterSending = { h with phase := .greeting }) ∨
    ∃ peer cursor sent inc, h.phase = .running peer (.streaming cursor sent (some f)) inc ∧
      h.afterSending = { h with
        phase := .running peer
          (if f = .done then .ended (.ok sent) else .streaming cursor (sent + 1) none) inc } := by
  rw [Half.offered?] at hoffer
  split at hoffer
  · rename_i hphase
    exact .inl ⟨hphase, by rw [Half.afterSending, hphase]⟩
  · rename_i peer cursor sent waiting inc hphase
    subst hoffer
    refine .inr ⟨peer, cursor, sent, inc, hphase, ?_⟩
    cases f <;> simp [Half.afterSending, hphase]
  · cases hoffer

omit [CausalTimestamp T D] [DeltaCrdt S D T] [Wire D] [Wire T] in
lemma isWaiting_cases (hwaiting : h.isWaiting = true) : h.phase = .greeting ∨
    ∃ peer out n result, h.phase = .running peer out (.merging n result) := by
  rw [Half.isWaiting] at hwaiting
  split at hwaiting
  · exact .inl ‹_›
  · exact .inr ⟨_, _, _, _, ‹_›⟩
  · cases hwaiting

def Phase.rank {T : Type} : Phase T → Nat
  | .opening => 3
  | .greeting => 2
  | .running _ _ (.merging ..) => 1
  | _ => 0

omit [CausalTimestamp T D] in
lemma rank_hear_le (hwaiting : h.isWaiting = true) (f : Frame) :
    (h.hear f).phase.rank ≤ h.phase.rank := by
  rcases isWaiting_cases hwaiting with hphase | ⟨peer, out, n, result, hphase⟩
  · rw [Half.hear.eq_def, hphase]
    cases f with
    | deltas _ => exact Nat.zero_le _
    | done => exact Nat.zero_le _
    | timestamp ts =>
      simp only
      split
      · exact Nat.le_succ 1
      · exact Nat.zero_le _
  · rw [Half.hear.eq_def, hphase]
    cases f with
    | timestamp _ => exact Nat.zero_le _
    | done => exact Nat.zero_le _
    | deltas batch =>
      simp only
      split
      · exact le_rfl
      · exact Nat.zero_le _

omit [CausalTimestamp T D] [DeltaCrdt S D T] [Wire D] [Wire T] in
lemma rank_hearNothing_lt (hwaiting : h.isWaiting = true) :
    h.hearNothing.phase.rank < h.phase.rank := by
  rcases isWaiting_cases hwaiting with hphase | ⟨peer, out, n, result, hphase⟩
  · rw [Half.hearNothing, hphase]
    exact Nat.zero_lt_two
  · rw [Half.hearNothing, hphase]
    exact Nat.zero_lt_one

/-- How much of its sending is ahead of a side in a state: a batch that can be made is to be made
and to be sent, and then there is `done` to make and to send. -/
def Outgoing.backlog (s : S) : Outgoing T → Nat
  | .streaming cursor _ none => 4 * (deltasSince s (some cursor)).length + 2
  | .streaming cursor _ (some .done) => 4 * (deltasSince s (some cursor)).length + 1
  | .streaming cursor _ (some _) => 4 * (deltasSince s (some cursor)).length + 3
  | .ended _ => 0

def Half.backlog (h : Half S T) : Nat :=
  match h.phase with
  | .running _ out _ => out.backlog h.state
  | _ => 0

omit [CausalTimestamp T D] [Wire D] [Wire T] in
lemma backlog_running {peer : Payload} {out : Outgoing T} {inc : Incoming}
    (hphase : h.phase = .running peer out inc) : h.backlog = out.backlog h.state := by
  rw [Half.backlog, hphase]

omit [Wire D] [Wire T] in
/-- A batch takes the cursor past one delta at least, whatever the replica has merged. -/
lemma length_deltasSince_nextBatch_lt [Authored D] [Summary S D] [Listing S] {cursor : T}
    {size : Nat} (hbatch : (nextBatch s cursor size).1 ≠ []) :
    (deltasSince s (some (nextBatch s cursor size).2)).length <
      (deltasSince s (some cursor)).length := by
  obtain ⟨δ, hδ⟩ := List.exists_mem_of_ne_nil _ hbatch
  have hpassed : reflects (nextBatch s cursor size).2 δ = true := reflects_observeAll_of_mem S hδ
  have hleft : δ ∉ deltasSince s (some (nextBatch s cursor size).2) := fun hleft => by
    rw [(Listing.mem_deltasSince_some.mp hleft).2] at hpassed
    cases hpassed
  have hsubset : δ :: deltasSince s (some (nextBatch s cursor size).2) ⊆
      deltasSince s (some cursor) := by
    refine List.cons_subset.mpr ⟨List.mem_of_mem_take hδ, fun ε hε => ?_⟩
    obtain ⟨hlisted, hunseen⟩ := Listing.mem_deltasSince_some.mp hε
    refine Listing.mem_deltasSince_some.mpr ⟨hlisted, Bool.eq_false_iff.mpr fun hknown => ?_⟩
    have hpassed : reflects (nextBatch s cursor size).2 ε = true :=
      reflects_observeAll_of_reflects S hknown
    rw [hunseen] at hpassed
    cases hpassed
  have hnodup : (δ :: deltasSince s (some (nextBatch s cursor size).2)).Nodup :=
    List.nodup_cons.mpr ⟨hleft, Listing.nodup_deltasSince s _⟩
  exact (hnodup.subperm hsubset).length_le

omit [Wire T] in
lemma backlog_prepare_lt [Authored D] [Summary S D] [Listing S] (hprepare : h.prepare? = some h') :
    h'.phase.rank = h.phase.rank ∧ h'.backlog < h.backlog := by
  obtain ⟨peer, cursor, sent, inc, hphase, rfl⟩ := prepare?_cases hprepare
  refine ⟨by rw [hphase]; cases inc <;> rfl, ?_⟩
  rw [backlog_running hphase, backlog_running rfl]
  by_cases hbatch : (nextBatch h.state cursor h.batchSize).1 = []
  · have hsame : (nextBatch h.state cursor h.batchSize).2 = cursor := by
      rw [nextBatch] at hbatch ⊢
      simp only at hbatch ⊢
      rw [hbatch, observeAll, List.foldl_nil]
    simp [hbatch, hsame, Outgoing.backlog]
  · have hlt := length_deltasSince_nextBatch_lt hbatch
    simp only [List.isEmpty_iff, hbatch, if_false, Outgoing.backlog]
    omega

omit [CausalTimestamp T D] [Wire D] in
lemma rank_afterSending_lt (hoffer : h.offered? = some f) :
    h.afterSending.phase.rank < h.phase.rank ∨
      h.afterSending.phase.rank = h.phase.rank ∧ h.afterSending.backlog < h.backlog := by
  rcases offered?_cases hoffer with ⟨hphase, hafter⟩ | ⟨peer, cursor, sent, inc, hphase, hafter⟩
  · rw [hafter, hphase]
    exact .inl (Nat.lt_succ_self 2)
  · refine .inr ⟨by rw [hafter, hphase]; cases inc <;> rfl, ?_⟩
    rw [hafter, backlog_running hphase, backlog_running rfl]
    cases f <;> simp [Outgoing.backlog]

/-! ### What a side has made of the frames -/

def Outgoing.Intact {T : Type} (out : Outgoing T) : Prop := ∀ e, out ≠ .ended (.error e)

lemma intact_streaming {T : Type} (cursor : T) (sent : Nat) (waiting : Option Frame) :
    (Outgoing.streaming cursor sent waiting).Intact := by
  simp [Outgoing.Intact]

lemma intact_ended {T : Type} (sent : Nat) : (Outgoing.ended (.ok sent) : Outgoing T).Intact := by
  simp [Outgoing.Intact]

variable (D) in
/-- How far a side has come with the frames, of which it has read some. -/
inductive Heeding (frames : List Frame) (h : Half S T) (read : List Frame) : Prop
  | before : h.phase = .opening ∨ h.phase = .greeting → read = [] → Heeding frames h read
  | refused {e : ClusterError} : h.phase = .refused e →
    heed D T frames = ⟨(heed D T read).deltas, some e⟩ → Heeding frames h read
  | merging {peer : Payload} {out : Outgoing T} {n : Nat} {result : MergeResult} :
    h.phase = .running peer out (.merging n result) → out.Intact → Expectant D T read →
    Heeding frames h read
  | done {peer : Payload} {out : Outgoing T} {p : Nat × MergeResult} :
    h.phase = .running peer out (.ended (.ok p)) → out.Intact →
    heed D T frames = ⟨(heed D T read).deltas, none⟩ → Heeding frames h read
  | failed {peer : Payload} {out : Outgoing T} {e : ClusterError} :
    h.phase = .running peer out (.ended (.error e)) → out.Intact →
    heed D T frames = ⟨(heed D T read).deltas, some e⟩ → Heeding frames h read

omit [CausalTimestamp T D] [DeltaCrdt S D T] in
/-- What a side has made of the frames does not depend on what it sends. -/
lemma Heeding.of_phase {peer : Payload} {out out' : Outgoing T} {inc : Incoming}
    (hheed : Heeding D frames h read) (hphase : h.phase = .running peer out inc)
    (hphase' : h'.phase = .running peer out' inc) (hout : out'.Intact) :
    Heeding D frames h' read := by
  cases hheed with
  | before hbefore _ => simp [hphase] at hbefore
  | refused hrefused _ => simp [hphase] at hrefused
  | merging hmerging _ hread =>
    rw [hphase] at hmerging
    cases hmerging
    exact .merging hphase' hout hread
  | done hdone _ hverdict =>
    rw [hphase] at hdone
    cases hdone
    exact .done hphase' hout hverdict
  | failed hfailed _ hverdict =>
    rw [hphase] at hfailed
    cases hfailed
    exact .failed hphase' hout hverdict

omit [CausalTimestamp T D] in
/-- The first frame opens the exchange, or ends it at once. -/
lemma heeding_greet (hphase : h.phase = .greeting) (f : Frame) (rest : List Frame) :
    Heeding D (f :: rest) (h.hear f) [f] ∧ (h.hear f).state = h.state ∧
      (heed D T [f]).deltas = [] := by
  cases f with
  | deltas batch =>
    have hhear : h.hear (.deltas batch) = h.refuse "expected timestamp, got deltas" := by
      simp only [Half.hear, hphase]
      rfl
    rw [hhear]
    exact ⟨.refused rfl rfl, rfl, rfl⟩
  | done =>
    have hhear : h.hear .done = h.refuse "expected timestamp, got done" := by
      simp only [Half.hear, hphase]
      rfl
    rw [hhear]
    exact ⟨.refused rfl rfl, rfl, rfl⟩
  | timestamp ts =>
    cases hdecode : (Wire.decode ts : Except ClusterError T) with
    | error e =>
      have hhear : h.hear (.timestamp ts) = { h with phase := .refused e } := by
        simp only [Half.hear, hphase, hdecode]
      have hverdict : ∀ rest, heed D T (.timestamp ts :: rest) = ⟨[], some e⟩ := fun rest => by
        rw [heed, hdecode]
      rw [hhear, hverdict]
      exact ⟨.refused rfl (by rw [hverdict, hverdict]), rfl, rfl⟩
    | ok since =>
      have hhear : h.hear (.timestamp ts) = { h with
          phase := .running ts (.streaming since 0 none) (.merging 0 .unchanged) } := by
        simp only [Half.hear, hphase, hdecode]
      rw [hhear]
      exact ⟨.merging rfl (intact_streaming _ _ _) (expectant_timestamp hdecode), rfl,
        by rw [heed, hdecode]; rfl⟩

omit [CausalTimestamp T D] in
lemma heeding_next {peer : Payload} {out : Outgoing T} {n : Nat} {result : MergeResult}
    (hphase : h.phase = .running peer out (.merging n result)) (hout : out.Intact)
    (hread : Expectant D T read)
    (hstate : h.state = (mergeAll s (heed D T read).deltas).1) (f : Frame) (rest : List Frame) :
    Heeding D (read ++ f :: rest) (h.hear f) (read ++ [f]) ∧
      (h.hear f).state = (mergeAll s (heed D T (read ++ [f])).deltas).1 := by
  -- a frame that brings nothing ends the exchange
  have hend : ∀ {complaint : Option ClusterError},
      (∀ rest, heedBatches D (f :: rest) = ⟨[], complaint⟩) →
      heed D T (read ++ f :: rest) = ⟨(heed D T (read ++ [f])).deltas, complaint⟩ ∧
        h.state = (mergeAll s (heed D T (read ++ [f])).deltas).1 := fun hf => by
    have hdeltas : (heed D T (read ++ [f])).deltas = (heed D T read).deltas := by
      rw [hread.deltas_append, hf, List.append_nil]
    rw [hdeltas, hread, hf, List.append_nil]
    exact ⟨rfl, hstate⟩
  cases f with
  | timestamp ts =>
    have hhear : h.hear (.timestamp ts) = { h with
        phase := .running peer out
          (.ended (.error (.violation "second timestamp in one exchange"))) } := by
      simp only [Half.hear, hphase]
    obtain ⟨hverdict, hkept⟩ := hend fun _ => rfl
    rw [hhear]
    exact ⟨.failed rfl hout hverdict, hkept⟩
  | done =>
    have hhear : h.hear .done =
        { h with phase := .running peer out (.ended (.ok (n, result))) } := by
      simp only [Half.hear, hphase]
    obtain ⟨hverdict, hkept⟩ := hend fun _ => rfl
    rw [hhear]
    exact ⟨.done rfl hout hverdict, hkept⟩
  | deltas batch =>
    cases hdecode : (Wire.decode batch : Except ClusterError (List D)) with
    | error e =>
      have hmerge : Encoded.merge h.state batch = .error e := by
        rw [Encoded.merge, hdecode]
        rfl
      have hhear : h.hear (.deltas batch) =
          { h with phase := .running peer out (.ended (.error e)) } := by
        simp only [Half.hear, hphase, hmerge]
      obtain ⟨hverdict, hkept⟩ := hend fun _ => by rw [heedBatches, hdecode]
      rw [hhear]
      exact ⟨.failed rfl hout hverdict, hkept⟩
    | ok ds =>
      have hmerge : Encoded.merge h.state batch = .ok (mergeAll h.state ds) := by
        rw [Encoded.merge, hdecode]
        rfl
      have hhear : h.hear (.deltas batch) = { h with
          state := (mergeAll h.state ds).1
          phase := .running peer out (.merging (n + 1) (result.or (mergeAll h.state ds).2)) } := by
        simp only [Half.hear, hphase, hmerge]
      obtain ⟨hnext, hdeltas⟩ := hread.batch hdecode
      rw [hhear, hdeltas, mergeAll_append, ← hstate]
      exact ⟨.merging rfl hout hnext, rfl⟩

omit [CausalTimestamp T D] in
lemma Heeding.hear (hheed : Heeding D (read ++ f :: rest) h read) (hwaiting : h.isWaiting = true)
    (hstate : h.state = (mergeAll s (heed D T read).deltas).1) :
    Heeding D (read ++ f :: rest) (h.hear f) (read ++ [f]) ∧
      (h.hear f).state = (mergeAll s (heed D T (read ++ [f])).deltas).1 := by
  cases hheed with
  | refused hphase _ => simp [Half.isWaiting, hphase] at hwaiting
  | done hphase _ _ => simp [Half.isWaiting, hphase] at hwaiting
  | failed hphase _ _ => simp [Half.isWaiting, hphase] at hwaiting
  | merging hphase hout hread => exact heeding_next hphase hout hread hstate f rest
  | before hbefore hread =>
    subst hread
    have hphase : h.phase = .greeting := by
      refine hbefore.resolve_left fun hopening => ?_
      simp [Half.isWaiting, hopening] at hwaiting
    obtain ⟨hgreet, hkept, hnothing⟩ := heeding_greet (D := D) hphase f rest
    rw [List.nil_append, List.nil_append, hnothing, hkept]
    exact ⟨hgreet, hstate⟩

omit [CausalTimestamp T D] [DeltaCrdt S D T] in
/-- That no frame will come is found out when all have been read. -/
lemma Heeding.hearNothing (hheed : Heeding D read h read) (hwaiting : h.isWaiting = true) :
    Heeding D read h.hearNothing read ∧ h.hearNothing.state = h.state := by
  cases hheed with
  | refused hphase _ => simp [Half.isWaiting, hphase] at hwaiting
  | done hphase _ _ => simp [Half.isWaiting, hphase] at hwaiting
  | failed hphase _ _ => simp [Half.isWaiting, hphase] at hwaiting
  | before hbefore hread =>
    subst hread
    have hphase : h.phase = .greeting := by
      refine hbefore.resolve_left fun hopening => ?_
      simp [Half.isWaiting, hopening] at hwaiting
    have hhear : h.hearNothing = h.refuse "peer closed before its timestamp" := by
      rw [Half.hearNothing, hphase]
    rw [hhear]
    exact ⟨.refused rfl rfl, rfl⟩
  | @merging peer out n result hphase hout hread =>
    have hhear : h.hearNothing = { h with
        phase := .running peer out (.ended (.error (.violation "peer closed before done"))) } := by
      rw [Half.hearNothing, hphase]
    have hverdict := hread []
    rw [heedBatches, List.append_nil, List.append_nil] at hverdict
    rw [hhear]
    exact ⟨.failed rfl hout hverdict, rfl⟩

end

end DeltaRing.Exchange
