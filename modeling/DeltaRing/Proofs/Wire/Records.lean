import DeltaRing.Checkpoint
import DeltaRing.Exchange.Frame
import DeltaRing.Metadata
import DeltaRing.OperationContext
import DeltaRing.Proofs.Wire.Replicated
import DeltaRing.RetryBuffer

/-!
What nodes send each other and keep on disk reads back.

Nodes, replicas, descriptors and sizes are records whose counts travel in words of their own widths.
They are lawful on the wire, and so are the frames of an exchange, checkpoints, parked pushes and
the tables of the metadata. The context of an operation reads back but for its cancellation, which
does not travel.
-/

namespace DeltaRing

namespace LawfulWire

/-! ### Bytes and values that may be absent -/

@[simp] lemma nesting_nat (n : Nat) : (toJson n).nesting = 0 := rfl

@[simp] lemma nesting_string (s : String) : (toJson s).nesting = 0 := rfl

lemma ofJson?_toJson_bytes {p : ByteArray} (_ : True) : ofJson? (toJson p) = some p := by
  have hread : (p.data.toList.map fun b => Json.int b.toNat).mapM (Json.asNat word8) =
      some (p.data.toList.map UInt8.toNat) := by
    have hbytes : (p.data.toList.map fun b => Json.int b.toNat) =
        (p.data.toList.map UInt8.toNat).map fun n => .int n := by
      rw [List.map_map]
      rfl
    rw [hbytes]
    refine Json.mapM_read fun n hn => ?_
    obtain ⟨b, -, rfl⟩ := List.mem_map.mp hn
    exact asNat_int b.toNat_lt
  change ((p.data.toList.map fun b => Json.int b.toNat).mapM (Json.asNat word8)).map
    (fun l => (⟨(l.map Nat.toUInt8).toArray⟩ : ByteArray)) = some p
  rw [hread]
  simp [Function.comp_def, Nat.toUInt8]

instance : LawfulWire ByteArray where
  Fits _ := True
  depth := 1
  faithful _ := .array fun j hj => by
    obtain ⟨b, -, rfl⟩ := List.mem_map.mp hj
    exact faithful_byte b
  toJson_ne_null := nofun
  ofJson?_toJson := ofJson?_toJson_bytes
  ofInner?_toJson := ofJson?_toJson_bytes
  refuses := .map (.asList (List.forall_mem_map.mpr fun _ _ => Json.refuses_of_flat rfl))

/-! ### Nodes, replicas and instances -/

lemma node_of_record {j id address : Json} {n : NodeInfo}
    (h : j.record ["id", "address"] = some [.given id, .given address])
    (hid : ofJson? id = some n.id) (haddress : ofJson? address = some n.address) :
    ofJson? j = some n := by
  change (j.record ["id", "address"] >>= _) = _
  simp [h, Json.Slot.required, hid, haddress]

lemma ofJson?_toJson_node {n : NodeInfo} (_ : True) : ofJson? (toJson n) = some n :=
  node_of_record (Json.record_object rfl (by decide)) (ofJson?_toJson trivial)
    (ofJson?_toJson trivial)

instance : LawfulWire NodeInfo where
  Fits _ := True
  depth := 1
  faithful _ := .object (by simpa using ⟨.text _, .text _⟩)
  toJson_ne_null := nofun
  ofJson?_toJson := ofJson?_toJson_node
  ofInner?_toJson := ofJson?_toJson_node
  refuses := .record_flat rfl

lemma replica_of_record {j id shard : Json} {r : ReplicaId}
    (h : j.record ["instance", "shard"] = some [.given id, .given shard])
    (hid : ofJson? id = some r.instanceId) (hshard : Json.asNat word16 shard = some r.shard) :
    ofJson? j = some r := by
  change (j.record ["instance", "shard"] >>= _) = _
  simp [h, Json.Slot.required, hid, hshard]

lemma ofJson?_toJson_replica {r : ReplicaId} (h : r.shard < word16) :
    ofJson? (toJson r) = some r :=
  replica_of_record (Json.record_object rfl (by decide)) (ofJson?_toJson trivial) (asNat_int h)

instance : LawfulWire ReplicaId where
  Fits r := r.shard < word16
  depth := 1
  faithful h := .object (by simpa using ⟨.text _, faithful_word h (by decide)⟩)
  toJson_ne_null := nofun
  ofJson?_toJson := ofJson?_toJson_replica
  ofInner?_toJson := ofJson?_toJson_replica
  refuses := .record_flat rfl

lemma replicaInfo_of_record {j replica size requested : Json} {r : ReplicaInfo}
    (h : j.record ["replica", "size", "requested_replicas"] =
      some [.given replica, .given size, .given requested])
    (hreplica : ofJson? replica = some r.replica) (hsize : ofJson? size = some r.size)
    (hrequested : Json.asNat word32 requested = some r.requestedReplicas) :
    ofJson? j = some r := by
  change (j.record ["replica", "size", "requested_replicas"] >>= _) = _
  simp [h, Json.Slot.required, hreplica, hsize, hrequested]

def FitsReplicaInfo (r : ReplicaInfo) : Prop :=
  Fits r.replica ∧ Fits r.size ∧ r.requestedReplicas < word32

lemma ofJson?_toJson_replicaInfo {r : ReplicaInfo} (h : FitsReplicaInfo r) :
    ofJson? (toJson r) = some r :=
  replicaInfo_of_record (Json.record_object rfl (by decide)) (ofJson?_toJson h.1)
    (ofJson?_toJson h.2.1) (asNat_int h.2.2)

instance : LawfulWire ReplicaInfo where
  Fits := FitsReplicaInfo
  depth := 2
  faithful h := .object (by simpa using
    ⟨faithful h.1, faithful_mono h.2.1 (by decide), faithful_word h.2.2 (by decide)⟩)
  toJson_ne_null := nofun
  ofJson?_toJson := ofJson?_toJson_replicaInfo
  ofInner?_toJson := ofJson?_toJson_replicaInfo
  refuses {r} := .record rfl (by decide) fun room h => by
    have hdeep : room < (toJson r.replica).nesting := by simpa using h
    change Option.bind (ofJson? ((toJson r.replica).clip room) : Option ReplicaId) _ = none
    rw [refuses room hdeep]
    rfl

lemma descriptor_of_record {j id type shards replicas : Json} {d : InstanceDescriptor}
    (h : j.record ["instance", "crdt_type", "shard_count", "replica_count"] =
      some [.given id, .given type, .given shards, .given replicas])
    (hid : ofJson? id = some d.instanceId) (htype : ofJson? type = some d.crdtType)
    (hshards : Json.asNat word16 shards = some d.shardCount)
    (hreplicas : Json.asNat word32 replicas = some d.replicaCount) : ofJson? j = some d := by
  change (j.record ["instance", "crdt_type", "shard_count", "replica_count"] >>= _) = _
  simp [h, Json.Slot.required, hid, htype, hshards, hreplicas]

lemma ofJson?_toJson_descriptor {d : InstanceDescriptor}
    (h : d.shardCount < word16 ∧ d.replicaCount < word32) : ofJson? (toJson d) = some d :=
  descriptor_of_record (Json.record_object rfl (by decide)) (ofJson?_toJson trivial)
    (ofJson?_toJson trivial) (asNat_int h.1) (asNat_int h.2)

instance : LawfulWire InstanceDescriptor where
  Fits d := d.shardCount < word16 ∧ d.replicaCount < word32
  depth := 1
  faithful h := .object (by simpa using
    ⟨.text _, .text _, faithful_word h.1 (by decide), faithful_word h.2 (by decide)⟩)
  toJson_ne_null := nofun
  ofJson?_toJson := ofJson?_toJson_descriptor
  ofInner?_toJson := ofJson?_toJson_descriptor
  refuses := .record_flat rfl

lemma holding_of_record {j replica node : Json} {c : ReplicaHolding}
    (h : j.record ["replica", "node"] = some [.given replica, .given node])
    (hreplica : ofJson? replica = some c.replica) (hnode : ofJson? node = some c.node) :
    ofJson? j = some c := by
  change (j.record ["replica", "node"] >>= _) = _
  simp [h, Json.Slot.required, hreplica, hnode]

lemma ofJson?_toJson_holding {c : ReplicaHolding} (h : Fits c.replica) :
    ofJson? (toJson c) = some c :=
  holding_of_record (Json.record_object rfl (by decide)) (ofJson?_toJson h)
    (ofJson?_toJson trivial)

instance : LawfulWire ReplicaHolding where
  Fits c := Fits c.replica
  depth := 2
  faithful h := .object (by simpa using ⟨faithful h, .text _⟩)
  toJson_ne_null := nofun
  ofJson?_toJson := ofJson?_toJson_holding
  ofInner?_toJson := ofJson?_toJson_holding
  refuses {c} := .record rfl (by decide) fun room h => by
    have hdeep : room < (toJson c.replica).nesting := by simpa using h
    simp [Json.Slot.required, refuses room hdeep]

/-! ### Names -/

lemma ofJson?_toJson_kind {k : MetadataKind} (_ : True) : ofJson? (toJson k) = some k := by
  cases k <;> rfl

instance : LawfulWire MetadataKind where
  Fits _ := True
  depth := 0
  faithful _ := .text _
  toJson_ne_null := nofun
  ofJson?_toJson := ofJson?_toJson_kind
  ofInner?_toJson := ofJson?_toJson_kind
  refuses := Json.refuses_of_flat rfl

lemma ofJson?_toJson_result {r : MergeResult} (_ : True) : ofJson? (toJson r) = some r := by
  cases r <;> rfl

instance : LawfulWire MergeResult where
  Fits _ := True
  depth := 0
  faithful {r} _ := by cases r <;> exact .text _
  toJson_ne_null {r} := by cases r <;> nofun
  ofJson?_toJson := ofJson?_toJson_result
  ofInner?_toJson := ofJson?_toJson_result
  refuses {r} := Json.refuses_of_flat (by cases r <;> rfl)

/-! ### Frames, pushes and checkpoints -/

lemma frame_of_record {kind : String} {content : Json} {frame : Payload → Frame} {p : Payload}
    (hkind : ∀ j, Frame.ofContent? kind (some j) = (ofJson? j).map frame)
    (hcontent : ofJson? content = some p) :
    ofJson? (Json.object [("frame", .text kind), ("payload", content)]) = some (frame p) := by
  have hrecord : (Json.object [("frame", .text kind), ("payload", content)]).record
      ["frame", "payload"] = some [.given (.text kind), .given content] :=
    Json.record_object rfl (by decide)
  change ((Json.object [("frame", .text kind), ("payload", content)]).record
    ["frame", "payload"] >>= _) = _
  simp [hrecord, Json.unitVariant, hkind, hcontent]

lemma ofJson?_toJson_frame {f : Frame} (_ : True) : ofJson? (toJson f) = some f := by
  cases f with
  | timestamp payload => exact frame_of_record (fun _ => rfl) (ofJson?_toJson trivial)
  | deltas payload => exact frame_of_record (fun _ => rfl) (ofJson?_toJson trivial)
  | done => rfl

lemma refuses_frame {f : Frame} : Json.Refuses (ofJson? : Json → Option Frame) (toJson f) := by
  have hpayload (kind : String) (p : Payload) (hkind : kind = "Timestamp" ∨ kind = "Deltas") :
      Json.Refuses (ofJson? : Json → Option Frame)
        (.object [("frame", .text kind), ("payload", toJson p)]) := by
    intro room hroom
    have hflat : (toJson p).nesting ≤ 1 := nesting_le_depth (α := ByteArray) trivial
    match room with
    | 0 => rfl
    | 1 => rcases hkind with rfl | rfl <;> rfl
    | room + 2 =>
      simp only [Json.nesting, Json.nestingMembers] at hroom
      omega
  cases f with
  | timestamp payload => exact hpayload _ payload (.inl rfl)
  | deltas payload => exact hpayload _ payload (.inr rfl)
  | done =>
    intro room hroom
    obtain rfl : room = 0 := Nat.lt_one_iff.mp hroom
    rfl

instance : LawfulWire Frame where
  Fits _ := True
  depth := 2
  faithful {f} _ := by
    have hpayload : ∀ p : Payload, Json.Faithful 1 (toJson p) := fun p =>
      faithful (α := ByteArray) (a := p) trivial
    cases f with
    | timestamp payload => exact .object (by simpa using ⟨.text _, hpayload _⟩)
    | deltas payload => exact .object (by simpa using ⟨.text _, hpayload _⟩)
    | done => exact .object (by simpa using .text _)
  toJson_ne_null {f} := by cases f <;> nofun
  ofJson?_toJson := ofJson?_toJson_frame
  ofInner?_toJson := ofJson?_toJson_frame
  refuses := refuses_frame

section

variable {M : Type} [Wire M]

lemma push_of_record {j seq payload : Json} {p : TaggedPush M}
    (h : j.record ["seq", "payload"] = some [.given seq, .given payload])
    (hseq : ofJson? seq = some p.seq) (hpayload : ofJson? payload = some p.payload) :
    ofJson? j = some p := by
  change (j.record ["seq", "payload"] >>= _) = _
  simp [h, Json.Slot.required, hseq, hpayload]

variable [LawfulWire M]

lemma ofJson?_toJson_push {p : TaggedPush M} (h : Fits p.seq ∧ Fits p.payload) :
    ofJson? (toJson p) = some p :=
  push_of_record (Json.record_object rfl (by decide)) (ofJson?_toJson h.1) (ofJson?_toJson h.2)

instance : LawfulWire (TaggedPush M) where
  Fits p := Fits p.seq ∧ Fits p.payload
  depth := depth M + 1
  faithful h := .object (by simpa using ⟨faithful_mono h.1 (Nat.zero_le _), faithful h.2⟩)
  toJson_ne_null := nofun
  ofJson?_toJson := ofJson?_toJson_push
  ofInner?_toJson := ofJson?_toJson_push
  refuses {p} := .record rfl (by decide) fun room h => by
    have hdeep : room < (toJson p.payload).nesting := by simpa using h
    refine Option.bind_eq_none_iff.mpr fun _ _ => ?_
    change Option.bind (ofJson? ((toJson p.payload).clip room) : Option M) _ = none
    rw [refuses room hdeep]
    rfl

end

lemma replicaCheckpoint_of_record {j replica reached peers : Json} {c : ReplicaCheckpoint}
    (h : j.record ["replica", "local", "peers"] =
      some [.given replica, .given reached, .given peers])
    (hreplica : ofJson? replica = some c.replica) (hlocal : ofJson? reached = some c.localTimestamp)
    (hpeers : ofJson? peers = some c.peers) : ofJson? j = some c := by
  change (j.record ["replica", "local", "peers"] >>= _) = _
  simp [h, Json.Slot.required, Json.Slot.defaulted, hreplica, hlocal, hpeers]

lemma fits_peers (c : ReplicaCheckpoint) : Fits c.peers := fun _ _ _ => ⟨trivial, trivial⟩

lemma ofJson?_toJson_replicaCheckpoint {c : ReplicaCheckpoint} (h : Fits c.replica) :
    ofJson? (toJson c) = some c :=
  replicaCheckpoint_of_record (Json.record_object rfl (by decide)) (ofJson?_toJson h)
    (ofJson?_toJson trivial) (ofJson?_toJson (fits_peers c))

instance : LawfulWire ReplicaCheckpoint where
  Fits c := Fits c.replica
  depth := 3
  faithful {c} h := .object (by simpa using ⟨faithful_mono h (by decide),
    faithful_mono (a := c.localTimestamp) trivial (by decide), faithful (fits_peers c)⟩)
  toJson_ne_null := nofun
  ofJson?_toJson := ofJson?_toJson_replicaCheckpoint
  ofInner?_toJson := ofJson?_toJson_replicaCheckpoint
  refuses {c} := .record rfl (by decide) fun room h => by
    have hdeep : room < (toJson c.replica).nesting ∨ room < (toJson c.localTimestamp).nesting ∨
        room < (toJson c.peers).nesting := by
      simpa using h
    rcases hdeep with hdeep | hdeep | hdeep <;>
      simp [Json.Slot.required, Json.Slot.defaulted, refuses room hdeep]

lemma checkpoint_of_record {j node takenAt replicas : Json} {c : Checkpoint}
    (h : j.record ["node", "taken_at_ms", "replicas"] =
      some [.given node, .given takenAt, .given replicas])
    (hnode : (Json.Slot.given node).optional ofJson? = some c.node)
    (htaken : ofJson? takenAt = some c.takenAt) (hreplicas : ofJson? replicas = some c.replicas) :
    ofJson? j = some c := by
  change (j.record ["node", "taken_at_ms", "replicas"] >>= _) = _
  simp [h, Json.Slot.required, Json.Slot.defaulted, hnode, htaken, hreplicas]

def FitsCheckpoint (c : Checkpoint) : Prop := Fits c.takenAt ∧ Fits c.replicas

lemma ofJson?_toJson_checkpoint {c : Checkpoint} (h : FitsCheckpoint c) :
    ofJson? (toJson c) = some c :=
  checkpoint_of_record (Json.record_object rfl (by decide)) (optional_toJson fun _ _ => trivial)
    (ofJson?_toJson h.1) (ofJson?_toJson h.2)

instance : LawfulWire Checkpoint where
  Fits := FitsCheckpoint
  depth := 5
  faithful {c} h := .object (by simpa using
    ⟨faithful_optional (o := c.node) (fun _ _ => trivial) (by decide),
      faithful_mono h.1 (by decide), faithful h.2⟩)
  toJson_ne_null := nofun
  ofJson?_toJson := ofJson?_toJson_checkpoint
  ofInner?_toJson := ofJson?_toJson_checkpoint
  refuses {c} := .record rfl (by decide) fun room h => by
    have hdeep : room < (toJson c.node).nesting ∨ room < (toJson c.takenAt).nesting ∨
        room < (toJson c.replicas).nesting := by
      simpa using h
    rcases hdeep with hdeep | hdeep | hdeep
    · change Option.bind ((Json.Slot.given ((toJson c.node).clip room)).optional ofJson?) _ = none
      rw [Json.Refuses.optional (v := c.node) (fun _ _ => refuses) room hdeep]
      rfl
    · cases hdeep
    · refine Option.bind_eq_none_iff.mpr fun _ _ => Option.bind_eq_none_iff.mpr fun _ _ => ?_
      change Option.bind (ofJson? ((toJson c.replicas).clip room) :
        Option (List ReplicaCheckpoint)) _ = none
      rw [refuses room hdeep]
      rfl

/-! ### Contexts of operations -/

lemma operationContext_of_record {j origin budget trace hops : Json} {c : OperationContext}
    (h : j.record ["origin", "await_propagation_to_n_nodes", "trace_id", "hops"] =
      some [.given origin, .given budget, .given trace, .given hops])
    (horigin : (Json.Slot.given origin).optional ofJson? = some c.origin)
    (hbudget : Json.asNat word32 budget = some c.budget)
    (htrace : ofJson? trace = some c.traceId) (hhops : Json.asNat word32 hops = some c.hops) :
    ofJson? j = some c.detached := by
  change (j.record ["origin", "await_propagation_to_n_nodes", "trace_id", "hops"] >>= _) = _
  simp [h, Json.Slot.required, Json.Slot.defaulted, horigin, hbudget, htrace, hhops,
    OperationContext.detached]

def FitsContext (c : OperationContext) : Prop := c.budget < word32 ∧ c.hops < word32

lemma ofJson?_toJson_operationContext {c : OperationContext} (h : FitsContext c) :
    ofJson? (toJson c) = some c.detached :=
  operationContext_of_record (Json.record_object rfl (by decide))
    (optional_toJson fun _ _ => trivial) (asNat_int h.1) (ofJson?_toJson trivial) (asNat_int h.2)

lemma faithful_operationContext {c : OperationContext} (h : FitsContext c) :
    Json.Faithful 1 (toJson c) :=
  .object (by simpa using
    ⟨faithful_optional (o := c.origin) (fun _ _ => trivial) (by decide),
      faithful_word h.1 (by decide), .text _, faithful_word h.2 (by decide)⟩)

/-! ### Conflicts -/

section

variable {V : Type} [Wire V] [LawfulWire V]

def FitsConflict (met : LwwConflict V) : Prop := (∀ v ∈ met.winner, Fits v) ∧ Fits met.stamp

lemma ofJson?_toJson_conflict {met : LwwConflict V} (h : FitsConflict met) :
    ofJson? (toJson met) = some met :=
  conflict_of_record (Json.record_object rfl (by decide)) (optional_toJson h.1)
    (ofJson?_toJson h.2)

instance : LawfulWire (LwwConflict V) where
  Fits := FitsConflict
  depth := max 1 (depth V) + 1
  faithful h := .object (by simpa using ⟨faithful_optional h.1 (Nat.le_max_right ..),
    faithful_mono h.2 (Nat.le_max_left ..)⟩)
  toJson_ne_null := nofun
  ofJson?_toJson := ofJson?_toJson_conflict
  ofInner?_toJson := ofJson?_toJson_conflict
  refuses {met} := .record rfl (by decide) fun room h => by
    have hdeep : room < (toJson met.winner).nesting ∨ room < (toJson met.stamp).nesting := by
      simpa using h
    rcases hdeep with hdeep | hdeep
    · simp [Json.Refuses.optional (v := met.winner) (fun _ _ => refuses) room hdeep]
    · simp [Json.Slot.required, refuses room hdeep]

end

end LawfulWire

/-! ### Types that have codes, and tables -/

namespace CrdtType

instance lawfulDelta : (t : CrdtType) → LawfulWire t.Delta
  | orSet item => inferInstanceAs (LawfulWire (OrSetDelta item.Carrier))
  | registry key value => inferInstanceAs (LawfulWire (LwwDelta key.Carrier value.Carrier))
  | orMap key value =>
    have := value.lawfulDelta
    inferInstanceAs (LawfulWire (OrMapDelta key.Carrier value.Delta))

instance lawfulTimestamp : (t : CrdtType) → LawfulWire t.Timestamp
  | orSet _ => inferInstanceAs (LawfulWire CausalContext)
  | registry key _ => inferInstanceAs (LawfulWire (LwwTimestamp key.Carrier))
  | orMap key value =>
    have := value.lawfulTimestamp
    inferInstanceAs (LawfulWire (MapTimestamp key.Carrier value.Timestamp))

end CrdtType

namespace Metadata

instance lawfulTableDelta : (k : MetadataKind) → LawfulWire (TableDelta k)
  | .membership => inferInstanceAs (LawfulWire (OrSetDelta NodeInfo))
  | .instances => inferInstanceAs (LawfulWire (LwwDelta InstanceId InstanceDescriptor))
  | .replicaSizes => inferInstanceAs (LawfulWire (LwwDelta ReplicaHolding Nat))

instance lawfulTableTimestamp : (k : MetadataKind) → LawfulWire (TableTimestamp k)
  | .membership => inferInstanceAs (LawfulWire CausalContext)
  | .instances => inferInstanceAs (LawfulWire (LwwTimestamp InstanceId))
  | .replicaSizes => inferInstanceAs (LawfulWire (LwwTimestamp ReplicaHolding))

end Metadata

end DeltaRing
