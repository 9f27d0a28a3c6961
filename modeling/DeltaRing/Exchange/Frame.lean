import DeltaRing.Wire

/-!
The frames that the two sides of an exchange send each other.
-/

namespace DeltaRing

/-- A timestamp opens an exchange, batches of deltas follow, and `done` ends them. -/
inductive Frame where
  | timestamp (payload : Payload)
  | deltas (payload : Payload)
  | done
deriving DecidableEq

namespace Frame

/-- The word for the frame in error messages. -/
def name : Frame → String
  | timestamp _ => "timestamp"
  | deltas _ => "deltas"
  | done => "done"

/-- The frame of a kind with the content given for it. -/
def ofContent? (kind : String) (content : Option Json) : Option Frame :=
  match kind, content with
  | "Timestamp", some j => (ofJson? j).map timestamp
  | "Deltas", some j => (ofJson? j).map deltas
  | "Done", none | "Done", some .null => some done
  | _, _ => none

instance : Wire Frame where
  toJson
    | timestamp payload => .object [("frame", .text "Timestamp"), ("payload", toJson payload)]
    | deltas payload => .object [("frame", .text "Deltas"), ("payload", toJson payload)]
    | done => .object [("frame", .text "Done")]
  ofJson?
    | .array [kind, content] => do ofContent? (← kind.asText) (some content)
    | .object members => do
      match ← (Json.object members).record ["frame", "payload"] with
      | [.given kind, .given content] => ofContent? (← kind.unitVariant) (some content)
      | [.given kind, _] => ofContent? (← kind.unitVariant) none
      | _ => none
    | _ => none

end Frame

end DeltaRing
