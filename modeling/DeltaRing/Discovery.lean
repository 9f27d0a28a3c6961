import DeltaRing.Wire

/-!
Finding nodes to join: from a fixed list of addresses, or from the workloads that an orchestrator
reports, as far as they run, have an address and pass a filter.
-/

namespace DeltaRing

/-- An address worth contacting. -/
structure Candidate where
  address : String
  displayName : String
deriving DecidableEq

structure Workload where
  name : String
  ip : Option String
  running : Bool
  labels : SortedMap String String
deriving DecidableEq

instance : Wire Candidate where
  toJson c := .object [("address", toJson c.address), ("display_name", toJson c.displayName)]
  ofJson? j := do
    let [address, displayName] ← j.record ["address", "display_name"] | none
    return ⟨← address.required ofJson?, ← displayName.required ofJson?⟩

instance : Wire Workload where
  toJson w := .object
    [("name", toJson w.name), ("ip", toJson w.ip), ("running", toJson w.running),
      ("labels", toJson w.labels)]
  ofJson? j := do
    let [name, ip, running, labels] ← j.record ["name", "ip", "running", "labels"] | none
    return ⟨← name.required ofJson?, ← ip.optional ofJson?, ← running.required ofJson?,
      ← labels.defaulted .empty ofJson?⟩

namespace Discovery

def ofAddresses (addresses : List String) : List Candidate := addresses.map fun a => ⟨a, a⟩

/-- The label `key` has the given value. -/
def hasLabel (key value : String) (w : Workload) : Bool := w.labels.get? key = some value

def ofWorkloads (port : Nat) (keep : Workload → Bool) (workloads : List Workload) :
    List Candidate :=
  workloads.filterMap fun w => do
    let ip ← w.ip
    if w.running && keep w then some ⟨s!"{ip}:{port}", w.name⟩ else none

end Discovery

end DeltaRing
