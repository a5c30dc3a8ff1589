import ShopValidation.Proofs.Worker.CallbackOrder
import ShopValidation.Proofs.Worker.Pauses

/-!
# Why the loop goes on

After a unit of work the loop begins another one only for a cause: it was told that there is more work,
a caller woke it or left a callback, or it failed and has paused for that.

Each cause is good for one unit. From the cause to the beginning of the unit the loop owes it. What it
owes to callers is in the wake-up flag, so that any number of calls may come to one unit, and what
they said before the loop cleared the flag comes to none.
-/

namespace ShopValidation

variable {κ : Type}

/-- Whether an event is the answer that there is more work. -/
def Event.findsWork : Event κ → Bool
  | .endProbe (some true) => true
  | _ => false

/-- There is one such event. -/
theorem Event.findsWork_iff {event : Event κ} :
    event.findsWork = true ↔ event = .endProbe (some true) := by
  unfold Event.findsWork
  split <;> simp_all

/-- Whether the loop has taken the waiting callbacks and not gone on since. -/
def Phase.flushed : Phase κ → Bool
  | .flushing _ | .calling _ | .checking .second | .probing .second | .settling | .asleep => true
  | _ => false

/-- The outcomes of events that come after others come after theirs. -/
theorem outcomes_append (past later : List (Event κ)) :
    outcomes (past ++ later) = outcomes past ++ outcomes later := List.filterMap_append

/-- The pauses for failures come one after another, whatever comes later. -/
theorem Backoff.dues_append (policy : Backoff) (before : Nat) (past later : List Bool) :
    policy.dues before (past ++ later) =
      policy.dues before past ++ policy.dues (failuresInRow before past) later := by
  induction past generalizing before with
  | nil => rfl
  | cons first rest ih => cases first <;> simp [dues, failuresInRow, ih]

namespace Worker

variable {w w' u v : Worker κ} {event : Event κ} {past later : List (Event κ)}

/-- The accepted calls that give the loop a cause to go on. -/
def heard (w : Worker κ) : Event κ → List (Event κ)
  | .wakeUp =>
    match w.wakeUp with
    | .ok _ => [.wakeUp]
    | .error _ => []
  | .whenIdle callback => (w.accepts (.whenIdle callback)).map .whenIdle
  | _ => []

/-- The units of work that the loop owes. Before it decides whether to sleep, that is up to the
wake-up flag. -/
def owed (w : Worker κ) : Nat :=
  match w.phase with
  | .entering | .ready | .failed | .charged _ | .pausing _ | .rested => 1
  | .checking _ | .probing _ | .collecting | .flushing _ | .calling _ | .settling | .asleep =>
    w.wakePending.toNat
  | .absent | .working | .worked | .counted | .rearming | .leaving | .exited => 0

/-- A worker with a thread, whose flag is set for the callbacks that its loop has not taken. -/
structure Alert (w : Worker κ) : Prop where
  orderly : w.Orderly
  launched : w.phase ≠ .absent
  flagged : w.phase.flushed = true → w.idleCallbacks ≠ [] → w.wakePending = true

/-- The loop owes one unit of work at most. -/
theorem owed_le_one (w : Worker κ) : w.owed ≤ 1 := by
  unfold owed
  split <;> simp [Bool.toNat_le]

/-- A stop settles what the loop owes. -/
theorem owed_unlessStopped_le (w : Worker κ) (next : Phase κ) :
    (w.unlessStopped next).owed ≤ { w with phase := next }.owed := by
  unfold unlessStopped
  split
  · exact Nat.zero_le _
  · exact Nat.le_refl _

/-- A loop that stays awake, or wakes, has a cause or is stopped. -/
theorem Alert.owed_unlessStopped_ready_le (h : w.Alert) (hflushed : w.phase.flushed = true)
    (hawake : w.shouldSleep = false) : (w.unlessStopped .ready).owed ≤ w.wakePending.toNat := by
  by_cases hstopped : w.lifecycle = .stopped
  · rw [owed, unlessStopped_phase hstopped]
    exact Nat.zero_le _
  · have hpending : w.wakePending = true := by
      cases hflag : w.wakePending with
      | true => rfl
      | false =>
        have hsome : w.idleCallbacks ≠ [] := by
          simpa [shouldSleep, hflag, stopRequested, hstopped] using hawake
        exact hflag.symm.trans (h.flagged hflushed hsome)
    rw [hpending]
    exact owed_le_one _

/-- The loop begins what it owes, and comes to owe more only through an answer or a failure. -/
theorem Alert.loopStep_owed (h : w.Alert) (hloop : LoopStep w event w') :
    (if event.beginsWork then 1 else 0) + w'.owed ≤
      w.owed + (if event.findsWork then 1 else 0) + event.outcome?.toList.count false := by
  cases hloop with
  | endWork succeeded hphase =>
    cases succeeded <;> simp [owed, hphase, Event.beginsWork, Event.findsWork, Event.outcome?]
  | endProbe round hasWork hphase =>
    rcases hasWork with _ | _ | _ <;> cases round <;>
      simp [owed, hphase, afterProbe, Event.beginsWork, Event.findsWork, Event.outcome?]
  | checkAfterWork hphase =>
    have hle := w.owed_unlessStopped_le .rearming
    simpa [owed, hphase, Event.beginsWork, Event.findsWork, Event.outcome?] using hle
  | stayAwake hphase hawake | awaken hphase hawake =>
    have hle := h.owed_unlessStopped_ready_le (by rw [hphase]; rfl) hawake
    simpa [owed, hphase, Event.beginsWork, Event.findsWork, Event.outcome?] using hle
  | checkBeforePause delay hphase =>
    have hle := w.owed_unlessStopped_le (.pausing delay)
    simpa [owed, hphase, Event.beginsWork, Event.findsWork, Event.outcome?] using hle
  | checkAfterPause hphase =>
    have hle := w.owed_unlessStopped_le .ready
    simpa [owed, hphase, Event.beginsWork, Event.findsWork, Event.outcome?] using hle
  | _ => simp [owed, Event.beginsWork, Event.findsWork, Event.outcome?, *]

/-- A call that is accepted is heard once. -/
theorem heard_of_running (hrunning : w.lifecycle = .running) :
    w.heard .wakeUp = [.wakeUp] ∧ ∀ callback, w.heard (.whenIdle callback) = [.whenIdle callback] := by
  constructor
  · simp [heard, wakeUp, notRunning?, hrunning]
  · intro callback
    simp [heard, accepts_of_running hrunning]

/-- The loop takes all callbacks, and touches neither them nor the flag before it goes on. -/
theorem LoopStep.flushed (h : LoopStep w event w') (hflushed : w'.phase.flushed = true) :
    w'.idleCallbacks = [] ∨ w.phase.flushed = true ∧ w'.idleCallbacks = w.idleCallbacks ∧
      w'.wakePending = w.wakePending := by
  cases h with
  | collect => exact .inl rfl
  | beginProbe round hphase =>
    refine .inr ⟨?_, rfl, rfl⟩
    rw [hphase]
    cases round with
    | first => cases hflushed
    | second => rfl
  | endProbe round hasWork hphase =>
    refine .inr ⟨?_, rfl, rfl⟩
    rw [hphase]
    cases round with
    | first => rcases hasWork with _ | _ | _ <;> cases hflushed
    | second => rfl
  | beginCall | endCall | endFlush | sleep => exact .inr ⟨by simp [Phase.flushed, *], rfl, rfl⟩
  | endWork succeeded => cases succeeded <;> cases hflushed
  | checkAfterWork | stayAwake | awaken | checkBeforePause | checkAfterPause =>
    unfold unlessStopped at hflushed
    split at hflushed <;> cases hflushed
  | _ => cases hflushed

/-- Every event leaves the worker alert. -/
theorem Alert.step (h : w.Alert) (hstep : Step w event w') : w'.Alert where
  orderly := h.orderly.step hstep
  launched := by
    rcases hstep.loop_or_phase_eq h.orderly h.launched with hloop | ⟨-, hphase⟩
    · exact hloop.phase_ne_absent_after
    · exact hphase ▸ h.launched
  flagged := by
    cases hstep with
    | cancel i hstarter => exact fun _ hsome => absurd rfl hsome
    | spawn i hstarter => nofun
    | wakeUp | whenIdle => exact fun _ _ => rfl
    | loop event w' hloop =>
      intro hflushed hsome
      rcases hloop.flushed hflushed with hnone | ⟨hbefore, hcallbacks, hflag⟩
      · exact absurd hnone hsome
      · rw [hflag]
        exact h.flagged hbefore (hcallbacks ▸ hsome)
    | _ => exact h.flagged

/-- Every event that begins a unit of work pays for it out of what is owed, and what is owed comes from
an answer, an accepted call or a failure. -/
theorem Alert.step_owed (h : w.Alert) (hstep : Step w event w') :
    (if event.beginsWork then 1 else 0) + w'.owed ≤
      w.owed + (if event.findsWork then 1 else 0) + (w.heard event).length +
        event.outcome?.toList.count false := by
  cases hstep with
  | spawn i hstarter | cancel i hstarter =>
    exact absurd (h.orderly.oneStart.phase_eq_absent hstarter nofun) h.launched
  | wakeUp hrunning =>
    have hle := owed_le_one { w with wakePending := true }
    simp only [(heard_of_running hrunning).1, Event.beginsWork, Bool.false_eq_true, if_false,
      List.length_singleton]
    omega
  | whenIdle callback hrunning =>
    have hle := owed_le_one
      { w with idleCallbacks := w.idleCallbacks ++ [callback], wakePending := true }
    simp only [(heard_of_running hrunning).2, Event.beginsWork, Bool.false_eq_true, if_false,
      List.length_singleton]
    omega
  | loop event w' hloop =>
    have hle := h.loopStep_owed hloop
    omega
  | _ =>
    -- Nobody is heard, and the loop and its flag stay as they are.
    simp [Event.beginsWork, Event.findsWork, Event.outcome?, owed, Worker.stop]

/-- Over a run, the units that begin and what is owed at the end come from what was owed before, the
answers, the accepted calls and the failures. -/
theorem Alert.countP_beginsWork_le (h : w.Alert) (hrun : w.run later = some w') :
    later.countP Event.beginsWork + w'.owed ≤
      w.owed + later.countP Event.findsWork + (along heard w later).length +
        (outcomes later).count false := by
  refine (run_induct (P := fun past v => v.Alert ∧ past.countP Event.beginsWork + v.owed ≤
    w.owed + past.countP Event.findsWork + (along heard w past).length +
      (outcomes past).count false) hrun ⟨h, ?_⟩ ?_).2
  · simp [outcomes, along]
  · intro past v event v' hpast hbefore hstep
    obtain ⟨halert, hle⟩ := hbefore
    have hone := halert.step_owed hstep
    refine ⟨halert.step hstep, ?_⟩
    rw [List.countP_append, List.countP_append, List.countP_singleton, List.countP_singleton,
      outcomes_concat, List.count_append, along_concat hpast, List.length_append]
    omega

/-- A failure of a hook is known to the loop. -/
theorem Step.failed (h : Step w event w') (hfailure : event.outcome? = some false) :
    w'.phase = .failed := by
  cases h with
  | loop event w' hloop =>
    cases hloop with
    | endWork succeeded =>
      cases succeeded with
      | true => cases hfailure
      | false => rfl
    | endProbe round hasWork =>
      cases hasWork with
      | none => cases round <;> rfl
      | some found => cases hfailure
    | _ => cases hfailure
  | _ => cases hfailure

/-- In the later ones of these events a hook failed, and what the clock slept next was the delay for
that failure, the whole of it. -/
def SleptForFailure (w : Worker κ) (past since : List (Event κ)) (v : Worker κ) : Prop :=
  ∃ before failure after x, since = before ++ failure :: after ∧ failure.outcome? = some false ∧
    w.run (past ++ before ++ [failure]) = some x ∧
    x.clock.sleeps ++ [w.policy.delayAfter (failuresInRow 0 (outcomes (past ++ before)))] <+:
      v.clock.sleeps

/-- A loop that is about to begin a unit of work has slept for every failure before. -/
theorem Uncounted.sleptForFailure {since : List (Event κ)} (h : w.Uncounted)
    (hrun : w.run (past ++ since) = some v) (hready : v.phase = .ready)
    (hfailed : false ∈ outcomes since) : SleptForFailure w past since v := by
  obtain ⟨failure, hmem, hfailure⟩ := List.mem_filterMap.mp hfailed
  obtain ⟨before, after, rfl⟩ := List.append_of_mem hmem
  have hcut : past ++ (before ++ failure :: after) = past ++ before ++ [failure] ++ after := by simp
  rw [hcut] at hrun
  obtain ⟨x, hx, -⟩ := Option.bind_eq_some_iff.mp (run_append w _ after ▸ hrun)
  obtain ⟨y, -, hlast⟩ := run_concat_eq_some.mp hx
  obtain ⟨_, hthen⟩ := h.settled_run hx
  obtain ⟨_, hnow⟩ := h.settled_run hrun
  have hphase : x.phase = .failed := (Step.of_step hlast).failed hfailure
  have hpaused := hthen.paused_of_not_ended (by rw [hphase]; rfl)
  have hslept := hnow.paused_of_not_ended (by rw [hready]; rfl)
  have houtcomes : outcomes (past ++ before ++ [failure]) = outcomes (past ++ before) ++ [false] := by
    rw [outcomes_concat, hfailure]
    rfl
  rw [due, hphase, houtcomes, Backoff.dues_failure, ← List.append_assoc] at hpaused
  rw [due, hready, List.append_nil, outcomes_append, houtcomes, Backoff.dues_append,
    Backoff.dues_failure] at hslept
  refine ⟨before, failure, after, x, rfl, hfailure, hx, ?_⟩
  rw [(List.append_inj' hpaused rfl).1, hslept, ← List.append_assoc, ← List.append_assoc]
  exact List.prefix_append _ _

/-- Where a unit of work has ended, its success is not counted yet, or its failure. -/
theorem phase_eq_of_endWork {succeeded : Bool}
    (hrun : w.run (past ++ [.endWork succeeded]) = some u) :
    u.phase = if succeeded then .worked else .failed := by
  obtain ⟨y, -, hend⟩ := run_concat_eq_some.mp hrun
  cases stepLoop_eq_some_iff.mp hend with
  | endWork => rfl

/-- After the end of a unit of work, the units that begin and what is owed come from answers, accepted
calls and failures, that of the unit among them. -/
theorem Uncounted.beginsWork_le {succeeded : Bool} (h : w.Uncounted)
    (hrun : w.run (past ++ [.endWork succeeded]) = some u) (hlater : u.run later = some v) :
    later.countP Event.beginsWork + v.owed ≤
      later.countP Event.findsWork + (along heard u later).length +
        (outcomes (.endWork succeeded :: later)).count false := by
  have hphase := phase_eq_of_endWork hrun
  have halert : u.Alert := by
    refine ⟨h.orderly_run hrun, ?_, ?_⟩ <;> rw [hphase] <;> cases succeeded <;> nofun
  have hle := halert.countP_beginsWork_le hlater
  have howed : u.owed = (Event.endWork (κ := κ) succeeded).outcome?.toList.count false := by
    rw [owed, hphase]
    cases succeeded <;> rfl
  have hcount : (outcomes (.endWork succeeded :: later)).count false =
      (Event.endWork (κ := κ) succeeded).outcome?.toList.count false +
        (outcomes later).count false := by
    rw [← List.count_append]
    rfl
  omega

/-- A loop that is about to begin a unit of work has had a cause since the last one ended. -/
theorem Uncounted.cause_of_ready {succeeded : Bool} {between : List (Event κ)} (h : w.Uncounted)
    (hrun : w.run (past ++ [.endWork succeeded]) = some u) (hbetween : u.run between = some v)
    (hready : v.phase = .ready) :
    .endProbe (some true) ∈ between ∨ along heard u between ≠ [] ∨
      SleptForFailure w past (.endWork succeeded :: between) v := by
  have howed : v.owed = 1 := by rw [owed, hready]
  have hle := h.beginsWork_le hrun hbetween
  have hcause : 0 < between.countP Event.findsWork ∨ 0 < (along heard u between).length ∨
      0 < (outcomes (.endWork succeeded :: between)).count false := by omega
  rcases hcause with hanswer | hcall | hfailure
  · obtain ⟨event, hmem, hfinds⟩ := List.countP_pos_iff.mp hanswer
    exact .inl (Event.findsWork_iff.mp hfinds ▸ hmem)
  · exact .inr (.inl (List.length_pos_iff.mp hcall))
  · have hfull : w.run (past ++ .endWork succeeded :: between) = some v := by
      rw [List.append_cons, run_append, hrun]
      exact hbetween
    exact .inr (.inr (h.sleptForFailure hfull hready (List.count_pos_iff.mp hfailure)))

/-- After the end of a unit of work, whatever callers do, another one begins only where since then the
loop was told that there is more work, or a call to wake it or to leave a callback was accepted, or a
hook failed and the clock slept the whole delay for that. As many units begin at most as there are such
answers, accepted calls and failures: none without a cause, and one for a single call. -/
theorem beginWork_has_cause {succeeded : Bool} (h : w.Uncounted)
    (hrun : w.run (past ++ [.endWork succeeded]) = some u) :
    (∀ between v, u.run (between ++ [.beginWork]) = some v →
      .endProbe (some true) ∈ between ∨ along heard u between ≠ [] ∨
        SleptForFailure w past (.endWork succeeded :: between) v) ∧
    ∀ later v, u.run later = some v →
      later.countP Event.beginsWork ≤
        later.countP Event.findsWork + (along heard u later).length +
          (outcomes (.endWork succeeded :: later)).count false := by
  constructor
  · intro between v hbetween
    obtain ⟨x, hx, hbegin⟩ := run_concat_eq_some.mp hbetween
    cases stepLoop_eq_some_iff.mp hbegin with
    | beginWork hready =>
      have hcause := h.cause_of_ready hrun hx hready
      exact hcause
  · intro later v hlater
    exact Nat.le_trans (Nat.le_add_right _ _) (h.beginsWork_le hrun hlater)

/-- The events of a start, up to the first unit of work. -/
def untilFirstWork : List (Event Unit) :=
  [.reserve, .clear 0, .spawn 0, .storeHandle 0, .enter, .beginWork]

/-- The events after a unit of work that succeeded, while there is no more work. -/
def untilAsleep : List (Event Unit) :=
  [.countSuccess, .checkAfterWork, .rearm, .beginProbe, .endProbe (some false), .collect, .endFlush,
    .beginProbe, .endProbe (some false), .settle]

/-- A caller wakes the loop, which finds nothing to do. -/
def wokenInVain : List (Event Unit) :=
  untilAsleep ++ [.wakeUp, .awaken, .beginWork, .endWork true] ++ untilAsleep

/-- The events after a unit of work that failed. -/
def untilRested : List (Event Unit) := [.countFailure, .checkBeforePause, .pause, .checkAfterPause]

theorem beginWork_has_cause_hesitant :
    (∃ u v, hesitant.run (untilFirstWork ++ [.endWork true]) = some u ∧
      u.run wokenInVain = some v ∧ v.phase = .asleep ∧ along heard u wokenInVain = [.wakeUp] ∧
      wokenInVain.countP Event.beginsWork ≤ 1) ∧
    ∃ u v, hesitant.run (untilFirstWork ++ [.endWork false]) = some u ∧
      u.run (untilRested ++ [.beginWork]) = some v ∧
      SleptForFailure hesitant untilFirstWork (.endWork false :: untilRested) v := by
  have huncounted : hesitant.Uncounted := uncounted_mk _ [.ofSeconds 1, .ofSeconds 5] _ rfl
  constructor
  · obtain ⟨u, hrun⟩ : ∃ u, hesitant.run (untilFirstWork ++ [.endWork true]) = some u := ⟨_, rfl⟩
    obtain ⟨v, hlater⟩ : ∃ v, u.run wokenInVain = some v := by
      cases hrun
      exact ⟨_, rfl⟩
    have hheard : along heard u wokenInVain = [.wakeUp] := by
      cases hrun
      rfl
    have hasleep : v.phase = .asleep := by
      cases hrun
      cases hlater
      rfl
    have hle := (beginWork_has_cause huncounted hrun).2 wokenInVain v hlater
    rw [hheard] at hle
    exact ⟨u, v, hrun, hlater, hasleep, hheard, hle⟩
  · obtain ⟨u, hrun⟩ : ∃ u, hesitant.run (untilFirstWork ++ [.endWork false]) = some u := ⟨_, rfl⟩
    obtain ⟨v, hlater⟩ : ∃ v, u.run (untilRested ++ [.beginWork]) = some v := by
      cases hrun
      exact ⟨_, rfl⟩
    have hheard : along heard u untilRested = [] := by
      cases hrun
      rfl
    refine ⟨u, v, hrun, hlater, ?_⟩
    rcases (beginWork_has_cause huncounted hrun).1 untilRested v hlater with hyes | hcall | hslept
    · exact absurd hyes (by decide)
    · exact absurd hheard hcall
    · exact hslept

end Worker

end ShopValidation
