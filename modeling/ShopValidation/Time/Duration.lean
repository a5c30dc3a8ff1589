/-!
# Durations

A length of time that is never negative, counted in nanoseconds.
-/

namespace ShopValidation

/-- A length of time in nanoseconds. -/
structure Duration where
  nanos : Nat
deriving DecidableEq, Repr

namespace Duration

def zero : Duration := ⟨0⟩

def ofSeconds (seconds : Nat) : Duration := ⟨seconds * 1000000000⟩

def ofMillis (millis : Nat) : Duration := ⟨millis * 1000000⟩

/-- Whole seconds and the nanoseconds of the unfinished second. -/
def ofParts (seconds nanos : Nat) : Duration := ⟨seconds * 1000000000 + nanos⟩

/-- The number of whole seconds. -/
def seconds (d : Duration) : Nat := d.nanos / 1000000000

/-- The nanoseconds of the unfinished second. -/
def subsecond (d : Duration) : Nat := d.nanos % 1000000000

/-- The number of whole milliseconds. -/
def millis (d : Duration) : Nat := d.nanos / 1000000

@[simp] theorem ofParts_seconds_subsecond (d : Duration) : ofParts d.seconds d.subsecond = d := by
  cases d
  simp only [ofParts, seconds, subsecond, mk.injEq]
  omega

end Duration

end ShopValidation
