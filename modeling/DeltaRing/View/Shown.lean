import DeltaRing.Error

/-!
How values are shown to a reader.

A value is shown as the document it travels as, unless it has a display text, and bytes are shown
as the text they hold, with U+FFFD for what is none. An error is shown by its kind and its message;
the message is left out where its wording is not fixed, because it only repeats what was found wrong
with a text, a file or the surroundings.
-/

namespace DeltaRing

class Shown (α : Type) where
  shown : α → Json

export Shown (shown)

/-- A named part of what is shown. -/
def field {α : Type} [Shown α] (name : String) (a : α) : String × Json := (name, shown a)

namespace Shown

variable {α β : Type}

instance (priority := low) [Wire α] : Shown α := ⟨toJson⟩
instance : Shown Json := ⟨id⟩
instance : Shown Unit := ⟨fun _ => .null⟩

/-- Numbers are shown in full, whatever can travel. -/
instance : Shown Nat := ⟨fun n => .int n⟩

instance [Shown α] : Shown (List α) := ⟨fun l => .array (l.map shown)⟩
instance [Shown α] : Shown (Option α) := ⟨fun o => o.elim .null shown⟩
instance [Shown α] [Shown β] : Shown (α × β) := ⟨fun p => .array [shown p.1, shown p.2]⟩

instance : Shown Payload where
  shown p := .text <| String.ofList ((Text.Utf8.decode p.data.toList).map fun c => c.getD '\ufffd')

instance : Shown Dot := ⟨fun d => .text d.display⟩
instance : Shown NodeInfo := ⟨fun n => .text n.display⟩
instance : Shown ReplicaId := ⟨fun r => .text r.display⟩
instance : Shown MetadataKind := ⟨fun k => .text k.name⟩

instance : Shown MergeResult where
  shown
    | .updated => .text "updated"
    | .unchanged => .text "unchanged"

instance : Shown Ordering where
  shown
    | .lt => .text "less"
    | .eq => .text "equal"
    | .gt => .text "greater"

end Shown

namespace ClusterError

def kind : ClusterError → String
  | routing .. => "Routing"
  | unreachable .. => "NodeUnreachable"
  | serialization _ => "Serialization"
  | violation _ => "ProtocolViolation"
  | instanceNotFound _ => "InstanceNotFound"
  | unknownType _ | unregisteredType _ | otherType .. => "UnknownCrdtType"
  | cancelled => "Cancelled"
  | config _ | unreadableConfig => "Config"
  | snapshot _ => "Snapshot"
  | noDate | queueTooLarge => "panic"

/-- The message has a fixed wording. -/
def isWorded : ClusterError → Bool
  | serialization _ | snapshot _ | unreadableConfig | unregisteredType _ | otherType .. | noDate
  | queueTooLarge => false
  | _ => true

end ClusterError

instance : Shown ClusterError where
  shown e := .object (field "error" e.kind
    :: if e.isWorded then [field "message" e.message] else [])

instance {α : Type} [Shown α] : Shown (Except ClusterError α) where
  shown
    | .ok a => shown a
    | .error e => shown e

/-- How two elements stand to each other. -/
def Lattice.comparison {T : Type} [Lattice T] [DecidableEq T] (a b : T) : Json := .object
  [field "cmp" (compare? a b), field "leq" (leq a b), field "eq" (decide (a = b))]

/-- A context with what can be counted in it. -/
def CausalContext.summary (c : CausalContext) : Json := .object
  [("ts", toJson c), field "count" c.dotCount, field "empty" c.isEmpty,
    field "cloud" c.cloud.toList]

end DeltaRing
