import DeltaRing.CrdtType
import DeltaRing.View.Shown

/-!
What a reader sees of a replica.

A view lists the visible content of a state in key order; hidden keys and tombstones are absent. A
query tells what the state holds under one key.
-/

namespace DeltaRing.CrdtType

/-- A listing with its length. -/
def listing (items : List Json) : List (String × Json) :=
  [("len", .int items.length), ("empty", .bool items.isEmpty), ("items", .array items)]

/-- The visible content of a state. -/
def view : (t : CrdtType) → t.State → Json
  | orSet _, s => .object
      [("len", .int s.size), ("empty", .bool s.isEmpty), ("items", .array (s.items.map toJson))]
  | registry _ _, s => .object (listing (s.items.map fun (k, v) => .array [toJson k, toJson v]))
  | orMap _ value, s => .object
      (("keys", .array (s.items.map fun (k, _) => toJson k))
        :: listing (s.items.map fun (k, v) => .array [toJson k, value.view v]))

/-- What a state holds under a key. -/
def query : (t : CrdtType) → t.State → t.KeyType → Json
  | orSet _, s, key => .object [("contains", .bool (s.contains key))]
  | registry _ _, s, key => .object
      [("contains", .bool (s.get? key).isSome), ("value", toJson (s.get? key)),
        ("stamp", toJson (s.stamp? key))]
  | orMap _ value, s, key => .object
      [("contains", .bool (s.get? key).isSome),
        ("value", (s.get? key).elim .null value.view)]

/-- The identity of a delta: its dot, its key and stamp, or its key. -/
def label : (t : CrdtType) → t.Delta → Json
  | orSet _, δ => .object [("dot", .text δ.dot.display)]
  | registry _ _, δ => .object [("key", toJson δ.key), ("stamp", toJson δ.stamp)]
  | orMap _ _, δ => .object [("key", toJson δ.key)]

/-- A state with its timestamp and its size estimate. -/
def summary (t : CrdtType) (s : t.State) : Json := .object
  [("view", t.view s), ("ts", toJson (timestamp s)), ("size", .int (sizeEstimate s))]

end DeltaRing.CrdtType
