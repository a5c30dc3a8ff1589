import Mathlib
import ShopValidation.Time.Clock

/-!
# Time on a clock set by hand

The time of such a clock is the time that it began with and the exact sum of all durations since, held
back at the end of the representable range. Where it is held back does not matter: what lies beyond
the end stays beyond it, whichever of the two limits a duration meets first. So the time never goes
back, and neither the order of the calls nor the way a duration is divided among them makes a
difference. Sleeps are recorded at full length also where time stands still.
-/

namespace ShopValidation

namespace Instant

variable {a b t : Instant}

/-- The nanoseconds of the latest instant are the last ones of the range. -/
theorem latest_nanos : latest.nanos = (latestSecond + 1) * 1000000000 - 1 := by decide

/-- No instant outside leap seconds is after the latest. -/
theorem nanos_le_latest (hregular : t.inLeapSecond = false) : t.nanos ≤ latest.nanos := by
  obtain ⟨-, hlt⟩ := t.nanos_range hregular
  rw [latest_nanos]
  omega

/-- Outside leap seconds, instants with the same nanoseconds are the same. -/
theorem eq_of_nanos_eq (ha : a.inLeapSecond = false) (hb : b.inLeapSecond = false)
    (h : a.nanos = b.nanos) : a = b := by
  have hanano : a.nano < 1000000000 := by simpa [inLeapSecond] using ha
  have hbnano : b.nano < 1000000000 := by simpa [inLeapSecond] using hb
  unfold nanos at h
  have hsecond : a.second = b.second := by omega
  have hnano : a.nano = b.nano := by omega
  cases a
  cases b
  cases hsecond
  cases hnano
  rfl

end Instant

namespace ManualClock

/-- A call that changes a clock. The last two have the same effect, but one comes with a waiter. -/
inductive Call where
  | set (time : Instant)
  | advance (step : Duration)
  | sleep (length : Duration)
  | sleepWith (length : Duration)
deriving DecidableEq

namespace Call

/-- Whether a call moves a clock on from where it is. -/
def isMove : Call → Bool
  | .set _ => false
  | _ => true

/-- The nanoseconds by which a call moves a clock on. -/
def step : Call → Nat
  | .set _ => 0
  | .advance d | .sleep d | .sleepWith d => d.nanos

/-- The duration that a call has recorded as a sleep. -/
def slept? : Call → Option Duration
  | .set _ | .advance _ => none
  | .sleep d | .sleepWith d => some d

end Call

/-- Carry out a call. Answers the clock and the durations that were handed to the waiter. -/
def perform (clock : ManualClock) : Call → ManualClock × List Duration
  | .set time => (clock.set time, [])
  | .advance d => (clock.advance d, [])
  | .sleep d => (clock.sleep d, [])
  | .sleepWith d => Sleeper.manual.sleepWith clock d

/-- Carry out calls one after another. Answers the clock and all that was handed to waiters. -/
def performAll (clock : ManualClock) : List Call → ManualClock × List Duration
  | [] => (clock, [])
  | call :: calls =>
    let (next, waited) := clock.perform call
    let (last, more) := next.performAll calls
    (last, waited ++ more)

/-- The nanoseconds by which calls move a clock on, taken together. -/
def total (calls : List Call) : Nat := (calls.map Call.step).sum

variable {clock : ManualClock} {call : Call} {calls : List Call} {t : Instant} {d : Duration}

@[simp] theorem performAll_nil : clock.performAll [] = (clock, []) := rfl

@[simp] theorem performAll_cons_fst :
    (clock.performAll (call :: calls)).1 = ((clock.perform call).1.performAll calls).1 := rfl

@[simp] theorem performAll_cons_snd : (clock.performAll (call :: calls)).2 =
    (clock.perform call).2 ++ ((clock.perform call).1.performAll calls).2 := rfl

/-- Calls are carried out on the clock that earlier calls have left. -/
theorem performAll_append_fst (clock : ManualClock) (front back : List Call) :
    (clock.performAll (front ++ back)).1 = ((clock.performAll front).1.performAll back).1 := by
  induction front generalizing clock with
  | nil => rfl
  | cons call front ih => exact ih (clock.perform call).1

theorem total_append (front back : List Call) : total (front ++ back) = total front + total back := by
  simp [total]

/-- The time after a duration is the exact one, or the latest where that is earlier. A duration that
is too long to be added at all leads beyond the end of the range from every time. -/
theorem later_nanos (t : Instant) (d : Duration) :
    (later t d).nanos = min (t.nanos + d.nanos) Instant.latest.nanos := by
  have hearliest := t.earliest_le
  have hlatest := t.le_latest
  rw [Instant.latest_nanos]
  unfold later
  split
  case isTrue hlong =>
    rw [Instant.latest_nanos]
    simp only [longestStep] at hlong
    simp only [Instant.nanos, earliestSecond, latestSecond] at *
    omega
  case isFalse =>
    rw [Instant.shift?]
    cases hshift : Instant.ofNanos? (t.nanos + d.nanos) with
    | none =>
      rw [Instant.ofNanos?_eq_none_iff] at hshift
      rw [Option.getD_none, Instant.latest_nanos]
      unfold Instant.nanos at *
      omega
    | some later =>
      have hwithin : ¬(latestSecond + 1) * 1000000000 ≤ t.nanos + d.nanos := fun hbeyond => by
        rw [Instant.ofNanos?_eq_none_iff.mpr (.inr hbeyond)] at hshift
        cases hshift
      rw [Option.getD_some, Instant.nanos_of_ofNanos? hshift]
      omega

/-- The time after a duration is in no leap second. -/
theorem later_inLeapSecond (t : Instant) (d : Duration) : (later t d).inLeapSecond = false := by
  unfold later
  split
  · rfl
  · rw [Instant.shift?]
    cases hshift : Instant.ofNanos? (t.nanos + d.nanos) with
    | none => rfl
    | some later => simpa [Instant.inLeapSecond] using Instant.nano_lt_of_ofNanos? hshift

/-- A call that moves a clock on does so by its duration. -/
theorem perform_now (clock : ManualClock) (hmove : call.isMove = true) :
    ∃ d, d.nanos = call.step ∧ (clock.perform call).1.now = later clock.now d := by
  cases call with
  | set => cases hmove
  | advance d | sleep d | sleepWith d => exact ⟨d, rfl, rfl⟩

/-- What a call adds to the record of sleeps. -/
theorem perform_sleeps (clock : ManualClock) (call : Call) :
    (clock.perform call).1.sleeps = clock.sleeps ++ call.slept?.toList := by
  cases call with
  | set | advance => exact (List.append_nil _).symm
  | sleep | sleepWith => rfl

/-- No call hands anything to a waiter. -/
theorem perform_waited (clock : ManualClock) (call : Call) : (clock.perform call).2 = [] := by
  cases call <;> rfl

/-- Calls that move a clock on leave it outside leap seconds, at the exact time or at the latest. -/
theorem performAll_now (hregular : clock.now.inLeapSecond = false)
    (hmoves : ∀ call ∈ calls, call.isMove = true) :
    (clock.performAll calls).1.now.inLeapSecond = false ∧
      (clock.performAll calls).1.now.nanos =
        min (clock.now.nanos + total calls) Instant.latest.nanos := by
  induction calls generalizing clock with
  | nil =>
    have hle := Instant.nanos_le_latest hregular
    refine ⟨hregular, ?_⟩
    simp only [performAll_nil, total, List.map_nil, List.sum_nil]
    omega
  | cons call calls ih =>
    obtain ⟨d, hstep, hnow⟩ := perform_now clock (hmoves call List.mem_cons_self)
    have hnext : (clock.perform call).1.now.inLeapSecond = false := by
      rw [hnow]
      exact later_inLeapSecond clock.now d
    obtain ⟨hlast, hnanos⟩ := ih hnext fun later hlater => hmoves later (List.mem_cons_of_mem _ hlater)
    refine ⟨hlast, ?_⟩
    -- Once held back at the end, time stays there, since no duration is negative.
    rw [performAll_cons_fst, hnanos, hnow, later_nanos, hstep]
    simp only [total, List.map_cons, List.sum_cons]
    omega

/-- The record of sleeps is what it was and then the lengths of the sleeps, in the order of the calls. -/
theorem performAll_sleeps (clock : ManualClock) (calls : List Call) :
    (clock.performAll calls).1.sleeps = clock.sleeps ++ calls.filterMap Call.slept? := by
  induction calls generalizing clock with
  | nil => exact (List.append_nil _).symm
  | cons call calls ih =>
    rw [performAll_cons_fst, ih, perform_sleeps, List.append_assoc]
    congr 1
    cases hslept : call.slept? with
    | none => simp [hslept]
    | some d => simp [hslept]

/-- Nothing is ever handed to a waiter. -/
theorem performAll_waited (clock : ManualClock) (calls : List Call) :
    (clock.performAll calls).2 = [] := by
  induction calls generalizing clock with
  | nil => rfl
  | cons call calls ih => rw [performAll_cons_snd, perform_waited, ih, List.nil_append]

/-- How a clock keeps time from now on, as long as it is not set again. -/
structure KeepsTime (clock : ManualClock) : Prop where
  exact : ∀ calls, (∀ call ∈ calls, call.isMove = true) →
    (clock.performAll calls).1.now.inLeapSecond = false ∧
      (clock.performAll calls).1.now.nanos =
        min (clock.now.nanos + total calls) Instant.latest.nanos
  monotone : ∀ front back, (∀ call ∈ front ++ back, call.isMove = true) →
    (clock.performAll front).1.now.nanos ≤ (clock.performAll (front ++ back)).1.now.nanos
  regroup : ∀ calls others, (∀ call ∈ calls, call.isMove = true) →
    (∀ call ∈ others, call.isMove = true) → total calls = total others →
      (clock.performAll calls).1.now = (clock.performAll others).1.now
  sleeps : ∀ calls, (clock.performAll calls).1.sleeps = clock.sleeps ++ calls.filterMap Call.slept?
  unwaited : ∀ calls, (clock.performAll calls).2 = []

/-- A clock outside leap seconds keeps time. -/
theorem keepsTime (hregular : clock.now.inLeapSecond = false) : clock.KeepsTime := by
  refine ⟨fun calls hmoves => performAll_now hregular hmoves, fun front back hmoves => ?_,
    fun calls others hcalls hothers htotal => ?_, performAll_sleeps clock, performAll_waited clock⟩
  · obtain ⟨-, hfront⟩ := performAll_now hregular fun call hcall =>
      hmoves call (List.mem_append_left _ hcall)
    obtain ⟨-, hall⟩ := performAll_now hregular hmoves
    rw [hfront, hall, total_append]
    omega
  · obtain ⟨hcallsRegular, hcallsNanos⟩ := performAll_now hregular hcalls
    obtain ⟨hothersRegular, hothersNanos⟩ := performAll_now hregular hothers
    refine Instant.eq_of_nanos_eq hcallsRegular hothersRegular ?_
    rw [hcallsNanos, hothersNanos, htotal]

/-- A clock that begins outside leap seconds keeps time until it is set, and a clock that is set to a
time outside leap seconds keeps time from there, whatever was done with it before. -/
theorem keepsTime_until_set (clock : ManualClock) (hregular : clock.now.inLeapSecond = false)
    (history : List Call) (time : Instant) (htime : time.inLeapSecond = false) :
    clock.KeepsTime ∧ (clock.performAll (history ++ [.set time])).1.now = time ∧
      (clock.performAll (history ++ [.set time])).1.KeepsTime := by
  have hset : (clock.performAll (history ++ [.set time])).1.now = time := by
    rw [performAll_append_fst]
    rfl
  exact ⟨keepsTime hregular, hset, keepsTime (by rwa [hset])⟩

/-- A clock one and a half seconds before the end of the range. -/
def closing : ManualClock :=
  { now := ⟨latestSecond - 1, 500000000, by decide, by decide, by decide⟩ }

theorem keepsTime_until_set_closing :
    closing.now.inLeapSecond = false ∧
      (closing.performAll [.sleep (.ofSeconds 60), .advance ⟨1⟩, .sleepWith longestStep]).1.now.nanos =
        Instant.latest.nanos ∧
      (closing.performAll [.sleep (.ofSeconds 60), .advance ⟨1⟩, .sleepWith longestStep]).1.sleeps =
        [.ofSeconds 60, longestStep] ∧
      (closing.performAll
        [.sleep (.ofSeconds 60), .set .epoch, .sleep (.ofSeconds 1), .advance ⟨5⟩]).1.now.nanos =
          1000000005 := by
  have hregular : closing.now.inLeapSecond = false := rfl
  obtain ⟨hkeeps, -, hagain⟩ :=
    keepsTime_until_set closing hregular [.sleep (.ofSeconds 60)] .epoch rfl
  exact ⟨hregular, (hkeeps.exact _ (by decide)).2.trans (by decide), hkeeps.sleeps _,
    (hagain.exact [.sleep (.ofSeconds 1), .advance ⟨5⟩] (by decide)).2⟩

end ManualClock

end ShopValidation
