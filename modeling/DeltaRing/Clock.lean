import DeltaRing.Error

/-!
The wall clock.

A clock shows a Unix time in milliseconds, and may be set to anything. Only a time that the calendar
has a date for can be read off it.
-/

namespace DeltaRing

/-- The end of the calendar's last year, 262142, in milliseconds from the start of 1970. -/
def calendarEnd : Nat := 8210266876800000

/-- The time that a clock shows, counted from the start of 1970. -/
def readClock : Int → Except ClusterError Nat
  | .ofNat t => if t < calendarEnd then .ok t else .error .noDate
  | .negSucc _ => .error .noDate

theorem readClock_eq_ok_iff {clock : Int} {t : Nat} :
    readClock clock = .ok t ↔ clock = t ∧ t < calendarEnd := by
  cases clock with
  | ofNat n =>
    simp only [readClock, Int.ofNat_eq_natCast, Int.natCast_inj]
    constructor
    · intro h
      split at h
      · next hn => exact ⟨by simpa using h, by simpa [← (Except.ok.inj h)] using hn⟩
      · simp at h
    · rintro ⟨rfl, h⟩
      simp [h]
  | negSucc n => simp [readClock]

end DeltaRing
