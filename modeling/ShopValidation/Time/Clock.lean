import ShopValidation.Time.Instant

/-!
# A clock set by hand

The clock has a current time and a record of every sleep, oldest first. A sleep takes no time of its
own: it moves the clock on by its length. Moving past the end of the representable range stops at
the end.
-/

namespace ShopValidation

/-- The longest duration by which a clock can be moved without reaching the end of time at once:
the largest number of milliseconds in a signed word of 64 bits. -/
def longestStep : Duration := ⟨9223372036854775807000000⟩

/-- A clock that moves only when told to. -/
structure ManualClock where
  now : Instant
  sleeps : List Duration := []
deriving DecidableEq

namespace ManualClock

/-- Set the current time. -/
def set (clock : ManualClock) (time : Instant) : ManualClock := { clock with now := time }

/-- The time after a duration, held back at the end of the range. -/
def later (t : Instant) (step : Duration) : Instant :=
  if longestStep.nanos < step.nanos then Instant.latest
  else (t.shift? step.nanos).getD Instant.latest

/-- Move the clock on without recording a sleep. -/
def advance (clock : ManualClock) (step : Duration) : ManualClock :=
  { clock with now := later clock.now step }

/-- Record a sleep and move the clock on by it. -/
def sleep (clock : ManualClock) (length : Duration) : ManualClock :=
  { clock.advance length with sleeps := clock.sleeps ++ [length] }

@[simp] theorem advance_sleeps (clock : ManualClock) (d : Duration) :
    (clock.advance d).sleeps = clock.sleeps := rfl

@[simp] theorem sleep_sleeps (clock : ManualClock) (d : Duration) :
    (clock.sleep d).sleeps = clock.sleeps ++ [d] := rfl

@[simp] theorem sleep_now (clock : ManualClock) (d : Duration) :
    (clock.sleep d).now = (clock.advance d).now := rfl

end ManualClock

/-- How a clock carries out a sleep that a waiter may do the blocking for. -/
inductive Sleeper where
  | manual
  | waiting
deriving DecidableEq, Repr

namespace Sleeper

/-- Sleep on a clock with a waiter at hand. Answers the clock and the durations handed to the
waiter: a clock set by hand never waits, any other lets the waiter do all of it. -/
def sleepWith (sleeper : Sleeper) (clock : ManualClock) (d : Duration) :
    ManualClock × List Duration :=
  match sleeper with
  | .manual => (clock.sleep d, [])
  | .waiting => (clock, [d])

end Sleeper

end ShopValidation
