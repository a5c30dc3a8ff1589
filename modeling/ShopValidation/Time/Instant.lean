import ShopValidation.Time.Calendar
import ShopValidation.Time.Duration

/-!
# Instants

A point in time, in seconds since the start of 1970 and nanoseconds within the second. The range is
bounded: from the first day of the year -262143 to the last nanosecond of the year 262142. The
second before a leap second lasts two seconds, so its nanoseconds run on past a whole second; every
other instant has less than 1000000000 of them, and then `Instant.nanos` is exact.
-/

namespace ShopValidation

/-- The first second of the representable range. -/
def earliestSecond : Int := -8334601228800

/-- The last second of the representable range. -/
def latestSecond : Int := 8210266876799

/-- A representable point in time. -/
structure Instant where
  second : Int
  nano : Nat
  nano_lt : nano < 2000000000
  earliest_le : earliestSecond ≤ second
  le_latest : second ≤ latestSecond
deriving DecidableEq

namespace Instant

/-- Nanoseconds since the start of 1970. -/
def nanos (t : Instant) : Int := t.second * 1000000000 + t.nano

/-- Whether the instant lies in a leap second. -/
def inLeapSecond (t : Instant) : Bool := 1000000000 ≤ t.nano

/-- The instant of a second and its nanoseconds, if it is representable. -/
def ofParts? (second : Int) (nano : Nat) : Option Instant :=
  if h : nano < 2000000000 ∧ earliestSecond ≤ second ∧ second ≤ latestSecond then
    some ⟨second, nano, h.1, h.2.1, h.2.2⟩
  else none

/-- The instant that is `n` nanoseconds after the start of 1970, if it is representable. -/
def ofNanos? (n : Int) : Option Instant :=
  ofParts? (n / 1000000000) (n % 1000000000).toNat

/-- The largest representable instant. -/
def latest : Instant :=
  ⟨latestSecond, 999999999, by decide, by decide, by decide⟩

/-- The start of 1970. -/
def epoch : Instant :=
  ⟨0, 0, by decide, by decide, by decide⟩

/-- Whether one instant is before another, strictly. -/
def isBefore (a b : Instant) : Bool :=
  a.second < b.second || (a.second = b.second && a.nano < b.nano)

/-- Move by a signed number of nanoseconds, if the result is representable. -/
def shift? (t : Instant) (n : Int) : Option Instant := ofNanos? (t.nanos + n)

theorem ofParts?_eq_some {second : Int} {nano : Nat} {t : Instant}
    (h : ofParts? second nano = some t) : t.second = second ∧ t.nano = nano := by
  unfold ofParts? at h
  split at h
  · cases h
    exact ⟨rfl, rfl⟩
  · cases h

theorem nanos_of_ofNanos? {n : Int} {t : Instant} (h : ofNanos? n = some t) : t.nanos = n := by
  obtain ⟨hs, hn⟩ := ofParts?_eq_some h
  unfold nanos
  rw [hs, hn]
  omega

/-- Nanoseconds are those of an instant exactly where they are within the range. -/
theorem ofNanos?_eq_none_iff {n : Int} : ofNanos? n = none ↔
    n < earliestSecond * 1000000000 ∨ (latestSecond + 1) * 1000000000 ≤ n := by
  unfold ofNanos? ofParts?
  split
  · rename_i hwithin
    refine iff_of_false (Option.some_ne_none _) ?_
    omega
  · rename_i hbeyond
    refine iff_of_true rfl ?_
    omega

/-- An instant that is made of nanoseconds is in no leap second. -/
theorem nano_lt_of_ofNanos? {n : Int} {t : Instant} (h : ofNanos? n = some t) : t.nano < 1000000000 := by
  have hnano := (ofParts?_eq_some h).2
  omega

/-- An instant has its nanoseconds within the representable range. -/
theorem nanos_range (t : Instant) (hregular : t.inLeapSecond = false) :
    earliestSecond * 1000000000 ≤ t.nanos ∧ t.nanos < (latestSecond + 1) * 1000000000 := by
  have hnano : t.nano < 1000000000 := by simpa [inLeapSecond] using hregular
  have hearliest := t.earliest_le
  have hlatest := t.le_latest
  unfold nanos
  constructor <;> omega

/-- Outside leap seconds, instants are ordered as their nanoseconds are. -/
theorem isBefore_iff_nanos_lt {a b : Instant} (ha : a.nano < 1000000000) (hb : b.nano < 1000000000) :
    a.isBefore b = true ↔ a.nanos < b.nanos := by
  simp only [isBefore, nanos, Bool.or_eq_true, Bool.and_eq_true, decide_eq_true_eq]
  omega

example : earliestSecond = (Date.mk (-262143) 1 1).dayNumber * 86400 := by decide
example : latestSecond = (Date.mk 262142 12 31).dayNumber * 86400 + 86399 := by decide

end Instant

end ShopValidation
