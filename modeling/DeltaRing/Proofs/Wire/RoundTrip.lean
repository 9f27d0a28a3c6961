import DeltaRing.Proofs.Wire.Nesting

/-!
Payloads read back.

A value that nodes send each other or keep on disk is what its payload decodes to, as far as its
document is nested no deeper than the reader follows it; which leaves room for forty-one maps in one
another. A deeper one does not come back.
-/

namespace DeltaRing

/-! ### What travels or is kept -/

/-- The types of what nodes send each other or keep on disk. Deltas travel in batches, and a push of
anything can be parked. -/
inductive Sent where
  | dot
  | context
  | stamp
  | delta (t : CrdtType)
  | operation (t : CrdtType)
  | output (t : CrdtType)
  | timestamp (t : CrdtType)
  | conflict (value : Scalar)
  | node
  | replica
  | replicaInfo
  | descriptor
  | holding
  | kind
  | tableDelta (k : MetadataKind)
  | tableTimestamp (k : MetadataKind)
  | result
  | frame
  | checkpoint
  | batch (of : Sent)
  | push (payload : Sent)

namespace Sent

def Carrier : Sent → Type
  | dot => Dot
  | context => CausalContext
  | stamp => LwwStamp
  | delta t => t.Delta
  | operation t => t.Operation
  | output t => t.Output
  | timestamp t => t.Timestamp
  | conflict value => LwwConflict value.Carrier
  | node => NodeInfo
  | replica => ReplicaId
  | replicaInfo => ReplicaInfo
  | descriptor => InstanceDescriptor
  | holding => ReplicaHolding
  | kind => MetadataKind
  | tableDelta k => Metadata.TableDelta k
  | tableTimestamp k => Metadata.TableTimestamp k
  | result => MergeResult
  | frame => Frame
  | checkpoint => Checkpoint
  | batch of => List of.Carrier
  | push payload => TaggedPush payload.Carrier

instance wire : (w : Sent) → Wire w.Carrier
  | dot => inferInstanceAs (Wire Dot)
  | context => inferInstanceAs (Wire CausalContext)
  | stamp => inferInstanceAs (Wire LwwStamp)
  | delta t => inferInstanceAs (Wire t.Delta)
  | operation t => inferInstanceAs (Wire t.Operation)
  | output t => inferInstanceAs (Wire t.Output)
  | timestamp t => inferInstanceAs (Wire t.Timestamp)
  | conflict value => inferInstanceAs (Wire (LwwConflict value.Carrier))
  | node => inferInstanceAs (Wire NodeInfo)
  | replica => inferInstanceAs (Wire ReplicaId)
  | replicaInfo => inferInstanceAs (Wire ReplicaInfo)
  | descriptor => inferInstanceAs (Wire InstanceDescriptor)
  | holding => inferInstanceAs (Wire ReplicaHolding)
  | kind => inferInstanceAs (Wire MetadataKind)
  | tableDelta k => inferInstanceAs (Wire (Metadata.TableDelta k))
  | tableTimestamp k => inferInstanceAs (Wire (Metadata.TableTimestamp k))
  | result => inferInstanceAs (Wire MergeResult)
  | frame => inferInstanceAs (Wire Frame)
  | checkpoint => inferInstanceAs (Wire Checkpoint)
  | batch of =>
    have := of.wire
    inferInstanceAs (Wire (List of.Carrier))
  | push payload =>
    have := payload.wire
    inferInstanceAs (Wire (TaggedPush payload.Carrier))

instance lawful : (w : Sent) → LawfulWire w.Carrier
  | dot => inferInstanceAs (LawfulWire Dot)
  | context => inferInstanceAs (LawfulWire CausalContext)
  | stamp => inferInstanceAs (LawfulWire LwwStamp)
  | delta t => inferInstanceAs (LawfulWire t.Delta)
  | operation t => inferInstanceAs (LawfulWire t.Operation)
  | output t => inferInstanceAs (LawfulWire t.Output)
  | timestamp t => inferInstanceAs (LawfulWire t.Timestamp)
  | conflict value => inferInstanceAs (LawfulWire (LwwConflict value.Carrier))
  | node => inferInstanceAs (LawfulWire NodeInfo)
  | replica => inferInstanceAs (LawfulWire ReplicaId)
  | replicaInfo => inferInstanceAs (LawfulWire ReplicaInfo)
  | descriptor => inferInstanceAs (LawfulWire InstanceDescriptor)
  | holding => inferInstanceAs (LawfulWire ReplicaHolding)
  | kind => inferInstanceAs (LawfulWire MetadataKind)
  | tableDelta k => inferInstanceAs (LawfulWire (Metadata.TableDelta k))
  | tableTimestamp k => inferInstanceAs (LawfulWire (Metadata.TableTimestamp k))
  | result => inferInstanceAs (LawfulWire MergeResult)
  | frame => inferInstanceAs (LawfulWire Frame)
  | checkpoint => inferInstanceAs (LawfulWire Checkpoint)
  | batch of =>
    have := of.lawful
    inferInstanceAs (LawfulWire (List of.Carrier))
  | push payload =>
    have := payload.lawful
    inferInstanceAs (LawfulWire (TaggedPush payload.Carrier))

def levels : Sent → Nat
  | delta t | operation t | output t | timestamp t => t.maps
  | batch of => of.levels + 1
  | push payload => payload.levels + 1
  | _ => 0

end Sent

/-! ### How deep what travels is -/

section

open LawfulWire

lemma depth_sent (w : Sent) : depth w.Carrier ≤ max 5 (3 * w.levels + 4) := by
  induction w with
  | delta t =>
    have := depth_delta t
    change depth t.Delta ≤ max 5 (3 * t.maps + 4)
    omega
  | operation t =>
    have := depth_operation t
    change depth t.Operation ≤ max 5 (3 * t.maps + 4)
    omega
  | output t =>
    have := depth_output t
    change depth t.Output ≤ max 5 (3 * t.maps + 4)
    omega
  | timestamp t =>
    have := depth_timestamp t
    change depth t.Timestamp ≤ max 5 (3 * t.maps + 4)
    omega
  | conflict value =>
    have := depth_scalar value
    change max 1 (depth value.Carrier) + 1 ≤ max 5 (3 * 0 + 4)
    omega
  | tableDelta k => cases k <;> decide
  | tableTimestamp k => cases k <;> decide
  | batch w ih =>
    change depth w.Carrier + 1 ≤ max 5 (3 * (w.levels + 1) + 4)
    omega
  | push w ih =>
    change depth w.Carrier + 1 ≤ max 5 (3 * (w.levels + 1) + 4)
    omega
  | _ => decide

/-- **Payloads read back.** Whatever is sent or kept, of any type, is what its payload decodes to if
and only if its document is nested no deeper than a reader follows it, and up to forty-one levels of
maps, batches and pushes none is nested deeper. A context of an operation comes back active and is
the same otherwise. -/
theorem payloads_read_back :
    (∀ (w : Sent) (v : w.Carrier), Fits v →
      (Wire.decode (Wire.encode v) = .ok v ↔ (toJson v).nesting ≤ Json.Reader.maxOpen) ∧
      (w.levels ≤ 41 → Wire.decode (Wire.encode v) = .ok v)) ∧
    ∀ c : OperationContext, FitsContext c → Wire.decode (Wire.encode c) = .ok c.detached := by
  refine ⟨fun w v h => ⟨decode_encode_iff h, fun hlevels => ?_⟩, fun c h => ?_⟩
  · have hdepth := depth_sent w
    refine decode_encode h ?_
    rw [Json.Reader.maxOpen]
    omega
  · have hfaithful := faithful_operationContext h
    rw [Wire.decode, decode?_encode hfaithful,
      Json.clip_eq_self (hfaithful.nesting_le.trans (by decide)), ofJson?_toJson_operationContext h]

/-- The timestamp of a set in forty-two maps does not come back. -/
theorem deep_timestamp_is_lost :
    ¬ ∀ (w : Sent) (v : w.Carrier), Fits v → Wire.decode (Wire.encode v) = .ok v := by
  intro hall
  have hread := hall (.timestamp ((CrdtType.orSet .string).inMaps 42)) _
    (CrdtType.fits_timestamp_addedWithin "a" 42)
  have hlost := CrdtType.decode_timestamp_addedWithin "a" (le_refl 42)
  cases hread.symm.trans hlost

/-- A parked batch for maps of maps of registries, with bounds of words and characters that are
written by escapes. -/
def parkedBatch :
    (Sent.push
      (.batch (.delta (.orMap .string (.orMap .string (.registry .pair .int)))))).Carrier :=
  (⟨word64 - 1,
    [.value "\"k\"\n" (.value "\x01" (.set ⟨0, 255⟩ (-word63) ⟨word64 - 1, "a"⟩)),
      .remove "" ⟨"a", 0⟩ (.ofList [⟨"b", 1⟩, ⟨"b", word64 - 1⟩])]⟩ :
    TaggedPush (List (OrMapDelta String (OrMapDelta String (LwwDelta BytePair Int)))))

def cancelledCall : OperationContext := ⟨some "a", word32 - 1, "t", 2, true⟩

theorem parked_batch_reads_back :
    Fits parkedBatch ∧ Wire.decode (Wire.encode parkedBatch) = .ok parkedBatch ∧
      FitsContext cancelledCall ∧
      Wire.decode (Wire.encode cancelledCall) = .ok cancelledCall.detached := by
  have hfits : Fits parkedBatch := by
    refine ⟨(by decide : word64 - 1 < word64), fun δ hδ => ?_⟩
    rcases List.mem_pair.mp hδ with rfl | rfl
    · have hvalue : -(word63 : Int) ≤ -word63 ∧ -(word63 : Int) < word63 := by decide
      exact ⟨trivial, trivial, trivial, hvalue, (by decide : word64 - 1 < word64)⟩
    · refine ⟨trivial, (by decide : 0 < word64), fun d hd => ?_⟩
      rcases List.mem_pair.mp (SortedSet.mem_ofList.mp hd) with rfl | rfl
      · exact (by decide : 1 < word64)
      · exact (by decide : word64 - 1 < word64)
  have hcall : FitsContext cancelledCall := by
    unfold FitsContext
    decide
  exact ⟨hfits, (payloads_read_back.1 _ parkedBatch hfits).2 (by decide), hcall,
    payloads_read_back.2 cancelledCall hcall⟩

end

end DeltaRing
