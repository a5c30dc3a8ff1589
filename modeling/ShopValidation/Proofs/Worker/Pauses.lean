import Mathlib.Data.Bool.Count
import ShopValidation.Proofs.Worker.Stopping

/-!
# Failures and the pauses after them

The loop pauses after every failure of its work or of a question for more, each time for the next delay
of its policy, until a unit of work succeeds. Its place among the delays, what it counts and the record
of the clock are kept apart from each other, and a success may be followed by a failure in one round.

The main statement compares all three with nothing but the answers of the work and of the questions,
after every run. The pauses on record are those that the failures call for, in order, and nothing else.
One may be missing, the last: while the loop is on its way to it, or where the loop found a stop
instead and is over.
-/

namespace ShopValidation

variable {κ : Type}

/-- What an event says about the success of the loop: its work succeeded or failed, or a question
failed. A question that is answered says nothing. -/
def Event.outcome? : Event κ → Option Bool
  | .endWork succeeded => some succeeded
  | .endProbe none => some false
  | _ => none

/-- The successes and failures in these events, in order. -/
def outcomes (events : List (Event κ)) : List Bool := events.filterMap Event.outcome?

/-- One more event is one more outcome at most. -/
theorem outcomes_concat (events : List (Event κ)) (event : Event κ) :
    outcomes (events ++ [event]) = outcomes events ++ event.outcome?.toList := by
  cases houtcome : event.outcome? <;> simp [outcomes, houtcome]

/-- An event that says nothing leaves the outcomes as they are. -/
theorem outcomes_concat_none (events : List (Event κ)) (event : Event κ)
    (houtcome : event.outcome? = none) : outcomes (events ++ [event]) = outcomes events := by
  rw [outcomes_concat, houtcome]
  exact List.append_nil _

/-- The failures since the last success, where some in a row came before. -/
def failuresInRow (before : Nat) : List Bool → Nat
  | [] => before
  | true :: rest => failuresInRow 0 rest
  | false :: rest => failuresInRow (before + 1) rest

/-- After a success there are no failures in a row. -/
theorem failuresInRow_success (before : Nat) (past : List Bool) :
    failuresInRow before (past ++ [true]) = 0 := by
  induction past generalizing before with
  | nil => rfl
  | cons first rest ih => cases first <;> exact ih _

/-- A failure makes one more. -/
theorem failuresInRow_failure (before : Nat) (past : List Bool) :
    failuresInRow before (past ++ [false]) = failuresInRow before past + 1 := by
  induction past generalizing before with
  | nil => rfl
  | cons first rest ih => cases first <;> exact ih _

namespace Backoff

variable {policy other : Backoff}

/-- The delay for a failure that comes after so many in a row: the one at that place, or the last. -/
def delayAfter (policy : Backoff) (failures : Nat) : Duration :=
  policy.delays.get ⟨min failures (policy.delays.length - 1), by
    have hsome := List.length_pos_iff.mpr policy.delays_ne_nil
    omega⟩

/-- The pauses that failures call for, where some in a row came before. -/
def dues (policy : Backoff) (before : Nat) : List Bool → List Duration
  | [] => []
  | true :: rest => dues policy 0 rest
  | false :: rest => policy.delayAfter before :: dues policy (before + 1) rest

/-- A success calls for no pause. -/
theorem dues_success (before : Nat) (past : List Bool) :
    policy.dues before (past ++ [true]) = policy.dues before past := by
  induction past generalizing before with
  | nil => rfl
  | cons first rest ih => cases first <;> simp [dues, ih]

/-- A failure calls for the pause that is next. -/
theorem dues_failure (before : Nat) (past : List Bool) :
    policy.dues before (past ++ [false]) =
      policy.dues before past ++ [policy.delayAfter (failuresInRow before past)] := by
  induction past generalizing before with
  | nil => rfl
  | cons first rest ih => cases first <;> simp [dues, failuresInRow, ih]

/-- The delay of a policy depends on its list and its place in it. -/
theorem delay_eq_delayAfter {failures : Nat} (hdelays : policy.delays = other.delays)
    (hnext : policy.next = min failures (policy.delays.length - 1)) :
    policy.delay = other.delayAfter failures := by
  simp [delay, delayAfter, hnext, hdelays]

/-- The delay for the last of some failures in a row stands at their number, or at the end. -/
theorem getElem?_delays {failures : Nat} (hpos : 0 < failures) :
    policy.delays[min failures policy.delays.length - 1]? =
      some (policy.delayAfter (failures - 1)) := by
  have hsome := List.length_pos_iff.mpr policy.delays_ne_nil
  have hplace :
      min failures policy.delays.length - 1 = min (failures - 1) (policy.delays.length - 1) := by
    omega
  rw [hplace, delayAfter, List.get_eq_getElem]
  exact List.getElem?_eq_getElem _

end Backoff

/-- The outcome that the loop knows and has not counted yet. -/
def Phase.uncounted? : Phase κ → Option Bool
  | .worked => some true
  | .failed => some false
  | _ => none

/-- Whether the loop has ended. -/
def Phase.ended : Phase κ → Bool
  | .leaving | .exited => true
  | _ => false

namespace Worker

variable {w v v' : Worker κ} {past : List (Event κ)} {event : Event κ} {recorded : List Bool}

/-- The largest number of failures in a row that is kept. -/
def mostInRow : Nat := 4294967295

/-- A worker to which nothing has happened, and that has counted nothing. -/
structure Uncounted (w : Worker κ) : Prop extends w.Fresh where
  stats : w.stats = {}
  next : w.policy.next = 0

/-- A new worker has counted nothing, whatever its name, delays and clock. -/
theorem uncounted_mk (name : String) (delays : List Duration) (clock : ManualClock)
    {policy : Backoff} (hpolicy : Backoff.ofDelays? delays = some policy) :
    ({ name := name, policy := policy, clock := clock } : Worker κ).Uncounted := by
  refine ⟨fresh_mk name policy clock, rfl, ?_⟩
  unfold Backoff.ofDelays? at hpolicy
  split at hpolicy <;> cases hpolicy
  rfl

/-- An event of a caller: the loop stays where it is, or gets its thread. -/
structure Spares (w : Worker κ) (event : Event κ) (w' : Worker κ) : Prop where
  outcome : event.outcome? = none
  other : event ≠ .beginWork ∧ event ≠ .pause
  stats : w'.stats = w.stats
  policy : w'.policy = w.policy
  clock : w'.clock = w.clock
  phase : w'.phase = w.phase ∨ w.phase = .absent ∧ w'.phase = .entering

/-- Whatever is no step of the loop spares it. -/
theorem Step.loop_or_spares (h : Step v event v') (horderly : v.Orderly) :
    LoopStep v event v' ∨ Spares v event v' := by
  cases h with
  | spawn i hstarter =>
    have habsent := horderly.oneStart.phase_eq_absent hstarter nofun
    exact .inr ⟨rfl, ⟨nofun, nofun⟩, rfl, rfl, rfl, .inr ⟨habsent, rfl⟩⟩
  | loop event v' hloop => exact .inl hloop
  | _ => exact .inr ⟨rfl, ⟨nofun, nofun⟩, rfl, rfl, rfl, .inl rfl⟩

/-- Where no stop was asked for, the loop goes on. -/
theorem unlessStopped_eq (hstopped : w.lifecycle ≠ .stopped) (next : Phase κ) :
    w.unlessStopped next = { w with phase := next } := by
  simp [unlessStopped, stopRequested, hstopped]

/-- These outcomes are what the worker has counted, and its place among the delays fits them. -/
structure Counted (policy : Backoff) (recorded : List Bool) (v : Worker κ) : Prop where
  delays : v.policy.delays = policy.delays
  next : v.policy.next = min (failuresInRow 0 recorded) (v.policy.delays.length - 1)
  iterations : v.stats.iterations = recorded.length
  succeeded : v.stats.succeeded = recorded.count true
  failures : v.stats.failures = recorded.count false
  inRow : v.stats.consecutiveFailures = min (failuresInRow 0 recorded) mostInRow
  lastBackoff : 0 < failuresInRow 0 recorded →
    v.stats.lastBackoff = some (policy.delayAfter (failuresInRow 0 recorded - 1))

variable {policy : Backoff}

/-- What has been counted stays so where neither the counters nor the policy change. -/
theorem Counted.frame (h : Counted policy recorded v) (hstats : v'.stats = v.stats)
    (hpolicy : v'.policy = v.policy) : Counted policy recorded v' where
  delays := by rw [hpolicy, h.delays]
  next := by rw [hpolicy, h.next]
  iterations := by rw [hstats, h.iterations]
  succeeded := by rw [hstats, h.succeeded]
  failures := by rw [hstats, h.failures]
  inRow := by rw [hstats, h.inRow]
  lastBackoff hpos := by rw [hstats, h.lastBackoff hpos]

/-- Counting a success goes back to the first delay. -/
theorem Counted.success (h : Counted policy recorded v) :
    Counted policy (recorded ++ [true])
      { v with policy := v.policy.reset, stats := v.stats.addSuccess, phase := .counted } where
  delays := h.delays
  next := by simp [failuresInRow_success]
  iterations := by simp [WorkerStats.addSuccess, h.iterations]
  succeeded := by simp [WorkerStats.addSuccess, h.succeeded]
  failures := by simp [WorkerStats.addSuccess, h.failures]
  inRow := by simp [WorkerStats.addSuccess, failuresInRow_success]
  lastBackoff hpos := by simp [failuresInRow_success] at hpos

/-- Counting a failure moves on to the next delay. -/
theorem Counted.failure (h : Counted policy recorded v) :
    Counted policy (recorded ++ [false])
      { v with
        policy := v.policy.advance
        stats := v.stats.addFailure v.policy.delay
        phase := .charged v.policy.delay } where
  delays := by rw [Backoff.advance_delays, h.delays]
  next := by
    rw [failuresInRow_failure, Backoff.advance_next, Backoff.advance_delays, h.next]
    omega
  iterations := by simp [WorkerStats.addFailure, h.iterations]
  succeeded := by simp [WorkerStats.addFailure, h.succeeded]
  failures := by simp [WorkerStats.addFailure, h.failures]
  inRow := by
    simp only [WorkerStats.addFailure, failuresInRow_failure, h.inRow, mostInRow]
    omega
  lastBackoff _ := by
    rw [failuresInRow_failure, Nat.add_sub_cancel]
    exact congrArg some (Backoff.delay_eq_delayAfter h.delays h.next)

/-- The pause that the loop is on its way to. -/
def due (w : Worker κ) : List Duration :=
  match w.phase with
  | .failed => [w.policy.delay]
  | .charged delay | .pausing delay => [delay]
  | _ => []

/-- The loop found a stop where it would have paused for its last failure, and is over. -/
structure GaveUp (w : Worker κ) (past : List (Event κ)) (v : Worker κ) : Prop where
  ended : v.phase.ended = true
  stopped : ∃ before after u, past = before ++ .checkBeforePause :: after ∧
    w.run before = some u ∧ u.lifecycle = .stopped ∧ .beginWork ∉ after ∧ .pause ∉ after
  unpaused : ∃ delay,
    v.clock.sleeps ++ [delay] = w.clock.sleeps ++ w.policy.dues 0 (outcomes past)

/-- What the worker has counted, and the pauses on record, are what the events so far say. -/
structure Settled (w : Worker κ) (past : List (Event κ)) (v : Worker κ) (recorded : List Bool) :
    Prop where
  orderly : v.Orderly
  outcomes_eq : outcomes past = recorded ++ v.phase.uncounted?.toList
  counted : Counted w.policy recorded v
  lastDue : ∀ delay, v.due = [delay] → v.phase.uncounted? = none →
    0 < failuresInRow 0 recorded ∧ v.stats.lastBackoff = some delay
  paused : v.clock.sleeps ++ v.due = w.clock.sleeps ++ w.policy.dues 0 (outcomes past) ∨
    GaveUp w past v

/-- A loop that goes on has paused for all failures but the one it is on its way to pause for. -/
theorem Settled.paused_of_not_ended (h : Settled w past v recorded) (hended : v.phase.ended = false) :
    v.clock.sleeps ++ v.due = w.clock.sleeps ++ w.policy.dues 0 (outcomes past) :=
  h.paused.resolve_right fun hgave => by simp [hgave.ended] at hended

/-- An event that says nothing about the success of the loop, and moves none of its records, keeps
them settled. -/
theorem Settled.frame (h : Settled w past v recorded) (horderly : v'.Orderly)
    (houtcome : event.outcome? = none) (hstats : v'.stats = v.stats) (hpolicy : v'.policy = v.policy)
    (hclock : v'.clock = v.clock) (hknown : v'.phase.uncounted? = v.phase.uncounted?)
    (hdue : v'.due = v.due)
    (hended : v.phase.ended = true →
      v'.phase.ended = true ∧ event ≠ .beginWork ∧ event ≠ .pause) :
    Settled w (past ++ [event]) v' recorded := by
  have hsame := outcomes_concat_none past event houtcome
  constructor
  · exact horderly
  · rw [hsame, hknown, h.outcomes_eq]
  · exact h.counted.frame hstats hpolicy
  · rw [hdue, hknown, hstats]
    exact h.lastDue
  · rw [hsame, hclock, hdue]
    refine h.paused.imp_right fun hgave => ?_
    obtain ⟨hstill, hbegin, hpause⟩ := hended hgave.ended
    obtain ⟨before, after, u, hpast, hu, hstopped, hnobegin, hnopause⟩ := hgave.stopped
    refine ⟨hstill, ⟨before, after ++ [event], u, by simp [hpast], hu, hstopped, ?_, ?_⟩, ?_⟩
    · simpa [hnobegin] using hbegin.symm
    · simpa [hnopause] using hpause.symm
    · rw [hsame, hclock]
      exact hgave.unpaused

/-- A loop that goes on may count what it knows, and pause for what is due. -/
theorem Settled.goOn {recorded' : List Bool} (h : Settled w past v recorded) (horderly : v'.Orderly)
    (houtcome : event.outcome? = none) (hended : v.phase.ended = false)
    (hknown : recorded ++ v.phase.uncounted?.toList = recorded' ++ v'.phase.uncounted?.toList)
    (hcounted : Counted w.policy recorded' v')
    (hlastDue : ∀ delay, v'.due = [delay] → v'.phase.uncounted? = none →
      0 < failuresInRow 0 recorded' ∧ v'.stats.lastBackoff = some delay)
    (hsleeps : v'.clock.sleeps ++ v'.due = v.clock.sleeps ++ v.due) :
    Settled w (past ++ [event]) v' recorded' := by
  have hsame := outcomes_concat_none past event houtcome
  refine ⟨horderly, ?_, hcounted, hlastDue, .inl ?_⟩
  · rw [hsame, h.outcomes_eq, hknown]
  · rw [hsame, hsleeps, h.paused_of_not_ended hended]

/-- An event that says that the loop succeeded or failed is known and not counted. A failure makes a
pause due. -/
theorem Settled.learn (h : Settled w past v recorded) (succeeded : Bool) {phase : Phase κ}
    (horderly : Orderly { v with phase := phase }) (hold : v.phase.uncounted? = none)
    (hnone : v.due = []) (hended : v.phase.ended = false)
    (houtcome : event.outcome? = some succeeded)
    (hphase : phase = if succeeded then .worked else .failed) :
    Settled w (past ++ [event]) { v with phase := phase } recorded := by
  have hall : outcomes past = recorded := by simpa [hold] using h.outcomes_eq
  have hpaused := h.paused_of_not_ended hended
  rw [hnone, List.append_nil] at hpaused
  constructor
  · exact horderly
  · rw [outcomes_concat, houtcome, hall, hphase]
    cases succeeded <;> rfl
  · exact h.counted.frame rfl rfl
  · cases succeeded <;> simp [hphase, due, Phase.uncounted?]
  · refine .inl ?_
    rw [outcomes_concat, houtcome, hphase]
    cases succeeded with
    | true =>
      rw [Option.toList_some, Backoff.dues_success, ← hpaused]
      exact List.append_nil _
    | false =>
      rw [Option.toList_some, Backoff.dues_failure, ← List.append_assoc, ← hpaused, hall]
      have hdelay := Backoff.delay_eq_delayAfter h.counted.delays h.counted.next
      exact congrArg (v.clock.sleeps ++ [·]) hdelay

/-- Where the loop looks for a stop before its pause, it is about to pause or has given up. -/
theorem Settled.beforePause (h : Settled w past v recorded) {delay : Duration}
    (hrun : w.run past = some v) (hphase : v.phase = .charged delay)
    (horderly : (v.unlessStopped (.pausing delay)).Orderly) :
    Settled w (past ++ [.checkBeforePause]) (v.unlessStopped (.pausing delay)) recorded := by
  have hended : v.phase.ended = false := by rw [hphase]; rfl
  by_cases hstopped : v.lifecycle = .stopped
  · have hpaused := h.paused_of_not_ended hended
    have hleaving := unlessStopped_phase hstopped (.pausing delay)
    have hsame := outcomes_concat_none past .checkBeforePause rfl
    constructor
    · exact horderly
    · rw [hsame, hleaving, h.outcomes_eq, hphase]
      rfl
    · exact h.counted.frame rfl rfl
    · simp [due, hleaving]
    · refine .inr ⟨by rw [hleaving]; rfl, ⟨past, [], v, rfl, hrun, hstopped, nofun, nofun⟩, delay, ?_⟩
      rw [hsame, ← hpaused, due, hphase]
      rfl
  · rw [unlessStopped_eq hstopped] at horderly ⊢
    refine h.frame horderly rfl rfl rfl rfl ?_ ?_ ?_
    · rw [hphase]
      rfl
    · simp [due, hphase]
    · simp [hended]

/-- Every step of the loop keeps its records settled. -/
theorem Settled.loopStep (h : Settled w past v recorded) (hrun : w.run past = some v)
    (hloop : LoopStep v event v') : ∃ recorded', Settled w (past ++ [event]) v' recorded' := by
  have horderly := h.orderly.loopStep hloop
  cases hloop with
  | endWork succeeded hphase =>
    refine ⟨recorded, h.learn succeeded horderly ?_ ?_ ?_ rfl rfl⟩ <;>
      simp [hphase, Phase.uncounted?, due, Phase.ended]
  | endProbe round hasWork hphase =>
    cases hasWork with
    | none =>
      refine ⟨recorded, h.learn false horderly ?_ ?_ ?_ rfl rfl⟩ <;>
        simp [hphase, Phase.uncounted?, due, Phase.ended]
    | some hasWork =>
      refine ⟨recorded, h.frame horderly rfl rfl rfl rfl ?_ ?_ ?_⟩ <;>
        cases round <;> cases hasWork <;>
        simp [hphase, afterProbe, Phase.uncounted?, due, Phase.ended]
  | countSuccess hphase =>
    refine ⟨recorded ++ [true], h.goOn horderly rfl ?_ ?_ h.counted.success ?_ ?_⟩ <;>
      simp [hphase, Phase.ended, Phase.uncounted?, due]
  | countFailure hphase =>
    refine ⟨recorded ++ [false], h.goOn horderly rfl ?_ ?_ h.counted.failure ?_ ?_⟩
    · simp [hphase, Phase.ended]
    · simp [hphase, Phase.uncounted?]
    · intro delay hdelay _
      rw [failuresInRow_failure, ← List.singleton_inj.mp hdelay]
      exact ⟨Nat.succ_pos _, rfl⟩
    · simp [hphase, due]
  | checkBeforePause delay hphase => exact ⟨recorded, h.beforePause hrun hphase horderly⟩
  | pause delay hphase =>
    refine ⟨recorded, h.goOn horderly rfl ?_ ?_ (h.counted.frame rfl rfl) ?_ ?_⟩ <;>
      simp [hphase, Phase.ended, Phase.uncounted?, due]
  | checkAfterWork hphase | stayAwake hphase | awaken hphase | checkAfterPause hphase =>
    refine ⟨recorded, h.frame horderly rfl rfl rfl rfl ?_ ?_ ?_⟩ <;>
      cases hstop : v.stopRequested <;>
      simp [unlessStopped, hstop, hphase, Phase.uncounted?, due, Phase.ended]
  | _ =>
    refine ⟨recorded, h.frame horderly rfl rfl rfl rfl ?_ ?_ ?_⟩ <;>
      simp [Phase.uncounted?, due, Phase.ended, *]

/-- Every event keeps the records of the loop settled. -/
theorem Settled.step (h : Settled w past v recorded) (hrun : w.run past = some v)
    (hstep : Step v event v') : ∃ recorded', Settled w (past ++ [event]) v' recorded' := by
  rcases hstep.loop_or_spares h.orderly with hloop | hspares
  · exact h.loopStep hrun hloop
  · have hframe := h.frame (h.orderly.step hstep) hspares.outcome hspares.stats hspares.policy
      hspares.clock
    rcases hspares.phase with hsame | ⟨habsent, hentering⟩
    · refine ⟨recorded, hframe (by rw [hsame]) (by simp only [due, hsame, hspares.policy]) ?_⟩
      exact fun hended => ⟨hsame ▸ hended, hspares.other⟩
    · refine ⟨recorded, hframe ?_ ?_ ?_⟩ <;>
        simp [Phase.uncounted?, due, Phase.ended, habsent, hentering]

/-- After every run of a worker that had counted nothing its records are settled. -/
theorem Uncounted.settled_run {events : List (Event κ)} (h : w.Uncounted)
    (hrun : w.run events = some v) : ∃ recorded, Settled w events v recorded := by
  refine run_induct (P := fun past v => ∃ recorded, Settled w past v recorded) hrun ?_ ?_
  · have hcounted : Counted w.policy [] w := by
      refine ⟨rfl, ?_, ?_, ?_, ?_, ?_, nofun⟩ <;> simp [h.stats, h.next, failuresInRow]
    refine ⟨[], h.orderly, ?_, hcounted, ?_, .inl ?_⟩
    · rw [h.phase]
      rfl
    · simp [due, h.phase]
    · rw [due, h.phase]
      rfl
  · intro past v event v' hpast ⟨recorded, hsettled⟩ hstep
    exact hsettled.step hpast hstep

/-- A loop that is not stopped pauses for a failure that it has counted. -/
theorem pause_of_charged {delay : Duration} (hphase : v.phase = .charged delay)
    (hstopped : v.lifecycle ≠ .stopped) :
    ∃ u, v.run [.checkBeforePause, .pause] = some u ∧
      u.clock.sleeps = v.clock.sleeps ++ [delay] := by
  have hchecked := (LoopStep.checkBeforePause delay hphase).step_eq
  rw [unlessStopped_eq hstopped] at hchecked
  rw [run_cons, hchecked]
  exact ⟨_, rfl, rfl⟩

/-- A failure of a loop that is not stopped is paused for as soon as the loop goes on. -/
theorem Settled.pause_of_failed (h : Settled w past v recorded) (hphase : v.phase = .failed)
    (hstopped : v.lifecycle ≠ .stopped) :
    ∃ u, v.run [.countFailure, .checkBeforePause, .pause] = some u ∧
      u.clock.sleeps = v.clock.sleeps ++ [w.policy.delayAfter (failuresInRow 0 recorded)] := by
  have hdelay := Backoff.delay_eq_delayAfter h.counted.delays h.counted.next
  rw [run_cons, (LoopStep.countFailure hphase).step_eq, ← hdelay]
  exact pause_of_charged rfl hstopped

/-- After every run of a new worker the pauses on record are those that its failures call for, up to
one that the loop is on its way to or that a stop has spared it. Before each unit of work there is
none missing. The counters say how the work and the questions went. -/
theorem pauses_eq_dues {events : List (Event κ)} (h : w.Uncounted)
    (hlength : w.policy.delays.length < 4294967296) (hrun : w.run events = some v) :
    ∃ recorded, outcomes events = recorded ++ v.phase.uncounted?.toList ∧
      (v.clock.sleeps ++ v.due = w.clock.sleeps ++ w.policy.dues 0 (outcomes events) ∨
        GaveUp w events v) ∧
      (v.phase = .ready → v.clock.sleeps = w.clock.sleeps ++ w.policy.dues 0 recorded) ∧
      (v.phase = .failed → v.lifecycle ≠ .stopped →
        ∃ u, v.run [.countFailure, .checkBeforePause, .pause] = some u ∧
          u.clock.sleeps = v.clock.sleeps ++ [w.policy.delayAfter (failuresInRow 0 recorded)]) ∧
      v.stats.iterations = v.stats.succeeded + v.stats.failures ∧
      v.stats.succeeded = recorded.count true ∧
      v.stats.failures = recorded.count false ∧
      v.stats.consecutiveFailures = min (failuresInRow 0 recorded) mostInRow ∧
      ∀ delay, v.phase = .charged delay →
        v.stats.lastBackoff = some delay ∧
        w.policy.delays[min v.stats.consecutiveFailures w.policy.delays.length - 1]? =
          some delay := by
  obtain ⟨recorded, hsettled⟩ := h.settled_run hrun
  have hcounted := hsettled.counted
  refine ⟨recorded, hsettled.outcomes_eq, hsettled.paused, ?_, hsettled.pause_of_failed, ?_,
    hcounted.succeeded, hcounted.failures, hcounted.inRow, ?_⟩
  · intro hready
    have hpaused := hsettled.paused_of_not_ended (by rw [hready]; rfl)
    have hall : outcomes events = recorded := by
      simpa [hready, Phase.uncounted?] using hsettled.outcomes_eq
    simpa [due, hready, hall] using hpaused
  · rw [hcounted.iterations, hcounted.succeeded, hcounted.failures, List.count_true_add_count_false]
  · intro delay hphase
    obtain ⟨hpos, hlast⟩ := hsettled.lastDue delay (by rw [due, hphase]) (by rw [hphase]; rfl)
    refine ⟨hlast, ?_⟩
    -- The list is shorter than the largest number that the counter holds.
    have hplace : min v.stats.consecutiveFailures w.policy.delays.length =
        min (failuresInRow 0 recorded) w.policy.delays.length := by
      rw [hcounted.inRow, mostInRow]
      omega
    rw [hplace, Backoff.getElem?_delays hpos, ← hcounted.lastBackoff hpos, hlast]

/-- A new worker that waits longer after a second failure in a row. -/
def hesitant : Worker Unit :=
  { name := "hesitant"
    policy := ⟨[.ofSeconds 1, .ofSeconds 5], 0, nofun, Nat.zero_lt_two⟩
    clock := { now := .epoch } }

/-- The work fails, succeeds after the pause, and fails again after a question that fails. -/
def troubled : List (Event Unit) :=
  [.reserve, .clear 0, .spawn 0, .storeHandle 0, .enter, .beginWork, .endWork false, .countFailure,
    .checkBeforePause, .pause, .checkAfterPause, .beginWork, .endWork true, .countSuccess,
    .checkAfterWork, .rearm, .wakeUp, .beginProbe, .endProbe none, .countFailure, .checkBeforePause,
    .pause, .checkAfterPause, .beginWork, .endWork false, .countFailure]

theorem pauses_eq_dues_troubled :
    ∃ v recorded, hesitant.run troubled = some v ∧ outcomes troubled = recorded ∧
      (v.clock.sleeps ++ [.ofSeconds 5] = [.ofSeconds 1, .ofSeconds 1, .ofSeconds 5] ∨
        GaveUp hesitant troubled v) ∧
      v.stats.failures = recorded.count false ∧ v.stats.lastBackoff = some (.ofSeconds 5) := by
  have huncounted : hesitant.Uncounted := uncounted_mk _ [.ofSeconds 1, .ofSeconds 5] _ rfl
  obtain ⟨v, hrun⟩ : ∃ v, hesitant.run troubled = some v := ⟨_, rfl⟩
  have hcharged : v.phase = .charged (.ofSeconds 5) := by
    cases hrun
    rfl
  obtain ⟨recorded, houtcomes, hpaused, -, -, -, -, hfailures, -, hlast⟩ :=
    pauses_eq_dues huncounted (by decide) hrun
  rw [hcharged] at houtcomes
  rw [due, hcharged] at hpaused
  refine ⟨v, recorded, hrun, ?_, hpaused, hfailures, (hlast _ hcharged).1⟩
  exact houtcomes.trans (List.append_nil _)

end Worker

end ShopValidation
