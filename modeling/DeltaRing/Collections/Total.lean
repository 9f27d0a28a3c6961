/-!
Totals of lists of counts.
-/

namespace DeltaRing

def total : List Nat → Nat
  | [] => 0
  | n :: rest => n + total rest

end DeltaRing
