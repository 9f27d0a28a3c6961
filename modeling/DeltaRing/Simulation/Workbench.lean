import DeltaRing.CrdtType

/-!
Replicas of one type under names, and a log of every delta that they have handed out.

Deltas can be delivered from the log to any replica, in any order and again, and cursors can be
kept beside the replicas.
-/

namespace DeltaRing.Simulation

structure Workbench (t : CrdtType) where
  replicas : SortedMap String t.State
  log : Array t.Delta
  cursors : SortedMap String t.Timestamp

namespace Workbench

variable {t : CrdtType}

def empty : Workbench t := ⟨.empty, #[], .empty⟩

/-- A replica that has not been touched is as new. -/
def replica (w : Workbench t) (name : String) : t.State := w.replicas.getD name initial

def cursor (w : Workbench t) (name : String) : t.Timestamp := w.cursors.getD name Lattice.bottom

def setReplica (w : Workbench t) (name : String) (s : t.State) : Workbench t :=
  { w with replicas := w.replicas.insert name s }

def setCursor (w : Workbench t) (name : String) (ts : t.Timestamp) : Workbench t :=
  { w with cursors := w.cursors.insert name ts }

/-- Applies an operation and logs its deltas. Since deltas come here from anywhere, an actor's
counters can be anywhere in their words. -/
def apply (w : Workbench t) (name : String) (actor : Actor) (op : t.Operation) :
    Workbench t × t.Output × List t.Delta :=
  let (s, output, deltas) := Operable.applyInWords (w.replica name) actor op
  ({ w.setReplica name s with log := w.log ++ deltas.toArray }, output, deltas)

def merge (w : Workbench t) (name : String) (δ : t.Delta) : Workbench t × MergeResult :=
  let (s, result) := DeltaRing.merge (w.replica name) δ
  (w.setReplica name s, result)

/-- Merges all the deltas as one batch. -/
def mergeAll (w : Workbench t) (name : String) (δs : List t.Delta) : Workbench t × MergeResult :=
  let (s, result) := DeltaRing.mergeAll (w.replica name) δs
  (w.setReplica name s, result)

/-- Merges logged deltas one after the other; an entry that the log does not have gives nothing. -/
def deliver (w : Workbench t) (name : String) :
    List Nat → Workbench t × List (Option MergeResult)
  | [] => (w, [])
  | entry :: rest =>
    let (w, result) :=
      match w.log[entry]? with
      | some δ => let (w, r) := w.merge name δ; (w, some r)
      | none => (w, none)
    let (w, results) := w.deliver name rest
    (w, result :: results)

/-- Brings a replica the deltas that it lacks of another. -/
def sync (w : Workbench t) (source target : String) :
    Workbench t × List t.Delta × MergeResult :=
  let deltas := deltasSince (w.replica source) (some (timestamp (w.replica target)))
  let (w, result) := w.mergeAll target deltas
  (w, deltas, result)

/-- Replaces a replica by a new one with the full history of another. -/
def copy (w : Workbench t) (source target : String) : Workbench t × MergeResult :=
  let (s, result) := DeltaRing.mergeAll (initial : t.State) (deltasSince (w.replica source) none)
  (w.setReplica target s, result)

end Workbench

end DeltaRing.Simulation
