import Mathlib.Data.List.Induction
import ShopValidation.Worker.Step

/-!
# What one event does to a worker

Every step of the loop is a rule of `LoopStep`, with the phase that it needs. Statements about the
loop are proved by cases on the rules. Statements about whole runs follow from one induction over
the events so far, `run_induct`.
-/

namespace ShopValidation

namespace Worker

variable {κ : Type} {w w' : Worker κ} {event : Event κ}

/-- The steps of the loop, one rule for each. -/
inductive LoopStep (w : Worker κ) : Event κ → Worker κ → Prop where
  | enter (hphase : w.phase = .entering) : LoopStep w .enter { w with phase := .ready }
  | beginWork (hphase : w.phase = .ready) : LoopStep w .beginWork { w with phase := .working }
  | endWork (succeeded : Bool) (hphase : w.phase = .working) :
    LoopStep w (.endWork succeeded) { w with phase := if succeeded then .worked else .failed }
  | countSuccess (hphase : w.phase = .worked) :
    LoopStep w .countSuccess
      { w with policy := w.policy.reset, stats := w.stats.addSuccess, phase := .counted }
  | checkAfterWork (hphase : w.phase = .counted) :
    LoopStep w .checkAfterWork (w.unlessStopped .rearming)
  | rearm (hphase : w.phase = .rearming) :
    LoopStep w .rearm { w with wakePending := false, phase := .checking .first }
  | beginProbe (round : Round) (hphase : w.phase = .checking round) :
    LoopStep w .beginProbe { w with phase := .probing round }
  | endProbe (round : Round) (hasWork : Option Bool) (hphase : w.phase = .probing round) :
    LoopStep w (.endProbe hasWork) { w with phase := afterProbe round hasWork }
  | collect (hphase : w.phase = .collecting) :
    LoopStep w .collect { w with idleCallbacks := [], phase := .flushing w.idleCallbacks }
  | beginCall (callback : κ) (rest : List κ) (hphase : w.phase = .flushing (callback :: rest)) :
    LoopStep w .beginCall { w with phase := .calling rest }
  | endCall (rest : List κ) (hphase : w.phase = .calling rest) :
    LoopStep w .endCall { w with phase := .flushing rest }
  | endFlush (hphase : w.phase = .flushing []) :
    LoopStep w .endFlush { w with phase := .checking .second }
  | sleep (hphase : w.phase = .settling) (hsleep : w.shouldSleep = true) :
    LoopStep w .settle { w with phase := .asleep }
  | stayAwake (hphase : w.phase = .settling) (hsleep : w.shouldSleep = false) :
    LoopStep w .settle (w.unlessStopped .ready)
  | awaken (hphase : w.phase = .asleep) (hsleep : w.shouldSleep = false) :
    LoopStep w .awaken (w.unlessStopped .ready)
  | countFailure (hphase : w.phase = .failed) :
    LoopStep w .countFailure
      { w with
        policy := w.policy.advance
        stats := w.stats.addFailure w.policy.delay
        phase := .charged w.policy.delay }
  | checkBeforePause (delay : Duration) (hphase : w.phase = .charged delay) :
    LoopStep w .checkBeforePause (w.unlessStopped (.pausing delay))
  | pause (delay : Duration) (hphase : w.phase = .pausing delay) :
    LoopStep w .pause { w with clock := w.clock.sleep delay, phase := .rested }
  | checkAfterPause (hphase : w.phase = .rested) :
    LoopStep w .checkAfterPause (w.unlessStopped .ready)
  | leave (hphase : w.phase = .leaving) : LoopStep w .leave { w with phase := .exited }

/-- The rules are the steps of the loop, no more and no fewer. -/
theorem stepLoop_eq_some_iff : w.stepLoop event = some w' ↔ LoopStep w event w' := by
  constructor
  · intro h
    unfold stepLoop at h
    split at h
    case h_13 hphase =>
      cases hsleep : w.shouldSleep with
      | true =>
        rw [hsleep, if_pos rfl] at h
        exact Option.some.inj h ▸ .sleep hphase hsleep
      | false =>
        rw [hsleep, if_neg (by decide)] at h
        exact Option.some.inj h ▸ .stayAwake hphase hsleep
    case h_14 hphase =>
      cases hsleep : w.shouldSleep with
      | true => simp [hsleep] at h
      | false =>
        rw [hsleep, if_neg (by decide)] at h
        exact Option.some.inj h ▸ .awaken hphase hsleep
    all_goals cases h
    all_goals constructor
    all_goals assumption
  · intro h
    cases h <;> simp [stepLoop, *]

/-- The steps of the loop are among the events of the worker. -/
theorem LoopStep.step_eq (h : LoopStep w event w') : w.step event = some w' := by
  have hloop := stepLoop_eq_some_iff.mpr h
  cases h <;> exact hloop

/-- The loop moves on its own account only once there is a thread. -/
theorem LoopStep.phase_ne_absent (h : LoopStep w event w') : w.phase ≠ .absent := by
  cases h <;> simp [*]

/-- Whether a stop was asked for decides between two phases, neither of which is absence. -/
theorem unlessStopped_phase_ne_absent (w : Worker κ) {next : Phase κ} (hnext : next ≠ .absent) :
    (w.unlessStopped next).phase ≠ .absent := by
  unfold unlessStopped
  split
  · nofun
  · exact hnext

/-- A thread does not go away. -/
theorem LoopStep.phase_ne_absent_after (h : LoopStep w event w') : w'.phase ≠ .absent := by
  cases h with
  | endWork succeeded => cases succeeded <;> nofun
  | endProbe round hasWork => rcases round with _ | _ <;> rcases hasWork with _ | _ | _ <;> nofun
  | checkAfterWork | stayAwake | awaken | checkBeforePause | checkAfterPause =>
    exact unlessStopped_phase_ne_absent w nofun
  | _ => nofun

/-- The loop never changes where the worker is in its life. -/
theorem LoopStep.lifecycle_eq (h : LoopStep w event w') : w'.lifecycle = w.lifecycle := by
  cases h <;> rfl

/-- The loop has no part in starts. -/
theorem LoopStep.starters_eq (h : LoopStep w event w') : w'.starters = w.starters := by
  cases h <;> rfl

/-- The loop takes callbacks in one place. -/
theorem LoopStep.idleCallbacks_eq (h : LoopStep w event w') (hphase : w.phase ≠ .collecting) :
    w'.idleCallbacks = w.idleCallbacks := by
  cases h with
  | collect hcollecting => exact absurd hcollecting hphase
  | _ => rfl

/-- Where the loop is about to take the callbacks, it does nothing else. -/
theorem LoopStep.collect_of_phase (h : LoopStep w event w') (hphase : w.phase = .collecting) :
    event = .collect ∧ w' = { w with idleCallbacks := [], phase := .flushing w.idleCallbacks } := by
  cases h <;> simp_all

/-- What an event does to a worker: the critical sections of callers, and the steps of the loop. -/
inductive Step (w : Worker κ) : Event κ → Worker κ → Prop where
  | reserve (hnew : w.lifecycle = .notStarted) :
    Step w .reserve { w with lifecycle := .running, starters := w.starters ++ [.reserved] }
  | reserveRefused (hnew : w.lifecycle ≠ .notStarted) : Step w .reserve w
  | cancel (i : Nat) (hstarter : w.starters[i]? = some .reserved) :
    Step w (.cancel i) { w.release with starters := w.starters.eraseIdx i }
  | clear (i : Nat) (hstarter : w.starters[i]? = some .reserved) (hlife : w.lifecycle ≠ .stopped) :
    Step w (.clear i) { w with starters := w.starters.set i .cleared }
  | clearRefused (i : Nat) (hstarter : w.starters[i]? = some .reserved)
    (hlife : w.lifecycle = .stopped) :
    Step w (.clear i) { w with starters := w.starters.eraseIdx i }
  | spawn (i : Nat) (hstarter : w.starters[i]? = some .cleared) :
    Step w (.spawn i) { w with starters := w.starters.set i .spawned, phase := .entering }
  | failSpawn (i : Nat) (hstarter : w.starters[i]? = some .cleared) :
    Step w (.failSpawn i) { w with lifecycle := .stopped, starters := w.starters.eraseIdx i }
  | storeHandle (i : Nat) (hstarter : w.starters[i]? = some .spawned) :
    Step w (.storeHandle i) { w with starters := w.starters.eraseIdx i, handleStored := true }
  | wakeUp (hrunning : w.lifecycle = .running) : Step w .wakeUp { w with wakePending := true }
  | wakeUpRefused (hrunning : w.lifecycle ≠ .running) : Step w .wakeUp w
  | whenIdle (callback : κ) (hrunning : w.lifecycle = .running) :
    Step w (.whenIdle callback)
      { w with idleCallbacks := w.idleCallbacks ++ [callback], wakePending := true }
  | whenIdleRefused (callback : κ) (hrunning : w.lifecycle ≠ .running) :
    Step w (.whenIdle callback) w
  | stop : Step w .stop w.stop
  | stopToJoin : Step w .stopToJoin { w.stop with joiners := w.joiners ++ [.stopped] }
  | takeHandle (j : Nat) (hjoiner : w.joiners[j]? = some .stopped) :
    Step w (.takeHandle j)
      { w with joiners := w.joiners.set j (.holding w.handleStored), handleStored := false }
  | join (j : Nat)
    (hjoiner : w.joiners[j]? = some (.holding false) ∨
      w.joiners[j]? = some (.holding true) ∧ w.hasExited = true) :
    Step w (.join j) { w with joiners := w.joiners.eraseIdx j, joined := w.joined + 1 }
  | loop (event : Event κ) (w' : Worker κ) (hloop : LoopStep w event w') : Step w event w'

/-- A stop was asked for once the worker is stopped. -/
@[simp] theorem stopRequested_iff : w.stopRequested = true ↔ w.lifecycle = .stopped := by
  simp [stopRequested]

/-- A claim succeeds on a new worker and changes nothing on any other. -/
theorem afterCall_reserve (w : Worker κ) :
    w.afterCall w.reserve =
      if w.lifecycle = .notStarted then
        { w with lifecycle := .running, starters := w.starters ++ [.reserved] }
      else w := by
  unfold reserve afterCall
  cases w.lifecycle <;> rfl

/-- A wake-up reaches a running worker and changes nothing on any other. -/
theorem afterCall_wakeUp (w : Worker κ) :
    w.afterCall w.wakeUp =
      if w.lifecycle = .running then { w with wakePending := true } else w := by
  unfold wakeUp notRunning? afterCall
  cases w.lifecycle <;> rfl

/-- A callback reaches a running worker and changes nothing on any other. -/
theorem afterCall_whenIdle (w : Worker κ) (callback : κ) :
    w.afterCall (w.whenIdle callback) =
      if w.lifecycle = .running then
        { w with idleCallbacks := w.idleCallbacks ++ [callback], wakePending := true }
      else w := by
  unfold whenIdle notRunning? afterCall
  cases w.lifecycle <;> rfl

/-- Every event that happens is one of the rules. -/
theorem Step.of_step (h : w.step event = some w') : Step w event w' := by
  cases event with
  | reserve =>
    rw [step, afterCall_reserve] at h
    split at h <;> cases h
    · exact .reserve ‹_›
    · exact .reserveRefused ‹_›
  | wakeUp =>
    rw [step, afterCall_wakeUp] at h
    split at h <;> cases h
    · exact .wakeUp ‹_›
    · exact .wakeUpRefused ‹_›
  | whenIdle callback =>
    rw [step, afterCall_whenIdle] at h
    split at h <;> cases h
    · exact .whenIdle callback ‹_›
    · exact .whenIdleRefused callback ‹_›
  | stop => cases h; exact .stop
  | stopToJoin => cases h; exact .stopToJoin
  | cancel i =>
    obtain ⟨hstarter, h⟩ := Option.ite_none_right_eq_some.mp h
    cases h
    exact .cancel i hstarter
  | clear i =>
    obtain ⟨hstarter, h⟩ := Option.ite_none_right_eq_some.mp h
    split at h <;> cases h
    · exact .clearRefused i hstarter (stopRequested_iff.mp ‹_›)
    · exact .clear i hstarter (mt stopRequested_iff.mpr ‹_›)
  | spawn i =>
    obtain ⟨hstarter, h⟩ := Option.ite_none_right_eq_some.mp h
    cases h
    exact .spawn i hstarter
  | failSpawn i =>
    obtain ⟨hstarter, h⟩ := Option.ite_none_right_eq_some.mp h
    cases h
    exact .failSpawn i hstarter
  | storeHandle i =>
    obtain ⟨hstarter, h⟩ := Option.ite_none_right_eq_some.mp h
    cases h
    exact .storeHandle i hstarter
  | takeHandle j =>
    obtain ⟨hjoiner, h⟩ := Option.ite_none_right_eq_some.mp h
    cases h
    exact .takeHandle j hjoiner
  | join j =>
    obtain ⟨hjoiner, h⟩ := Option.ite_none_right_eq_some.mp h
    cases h
    exact .join j hjoiner
  | _ => exact .loop _ w' (stepLoop_eq_some_iff.mp h)

/-- A run can be cut at any place. -/
theorem run_append (w : Worker κ) (before after : List (Event κ)) :
    w.run (before ++ after) = (w.run before).bind (·.run after) :=
  List.foldlM_append

/-- A run ends with the step of its last event. -/
theorem run_concat_eq_some {past : List (Event κ)} :
    w.run (past ++ [event]) = some w' ↔ ∃ v, w.run past = some v ∧ v.step event = some w' := by
  simp [run_append, Option.bind_eq_some_iff]

/-- What holds at the beginning and is kept by every event, given the events before it, holds after
every run. -/
theorem run_induct {P : List (Event κ) → Worker κ → Prop} {events : List (Event κ)}
    (h : w.run events = some w') (hnil : P [] w)
    (hstep : ∀ past v event v', w.run past = some v → P past v → Step v event v' →
      P (past ++ [event]) v') : P events w' := by
  induction events using List.reverseRecOn generalizing w' with
  | nil => exact Option.some.inj h ▸ hnil
  | append_singleton past event ih =>
    obtain ⟨v, hv, hlast⟩ := run_concat_eq_some.mp h
    exact hstep past v event w' hv (ih hv) (.of_step hlast)

end Worker

end ShopValidation
