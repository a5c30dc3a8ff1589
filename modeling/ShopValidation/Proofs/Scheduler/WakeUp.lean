import Mathlib
import ShopValidation.Proofs.Scheduler.Service

/-!
# No wake-up is lost

The loop clears the wake-up flag before it asks for work, and producers queue before they wake. So
where the loop has found no work twice and is about to sleep, or sleeps, the flag is set or every
task in the queue is of a producer that has yet to wake the worker.
-/

namespace ShopValidation

/-- A batch takes tasks off the queue and adds none. -/
theorem Stage.Step.tasks_subset {batchMax : Nat} {now : Instant} {tables tables' : Tables}
    {source source' : Source} {stage stage' : Stage}
    (h : Stage.Step batchMax now tables source stage stage' tables' source') :
    tables'.tasks ⊆ tables.tasks := by
  cases h with
  | write picked applied after happly =>
    obtain ⟨-, rfl⟩ := Tables.applyBatch_eq_ok_iff.mp happly
    exact fun task htask => List.mem_of_mem_filter htask
  | _ => exact List.Subset.refl _

/-- Others take tasks off the queue and add none. -/
theorem Change.tasks_subset (tables : Tables) (change : Change) :
    (change.on tables).tasks ⊆ tables.tasks := by
  cases change with
  | addShop shop =>
    rcases on_addShop_cases tables shop with ⟨-, heq⟩ | heq
    · rw [heq]
      exact List.Subset.refl _
    · rw [heq]
      exact List.Subset.refl _
  | confirm id position time =>
    rcases on_confirm_cases tables id position time with heq | heq
    · rw [heq]
      exact List.Subset.refl _
    · rw [heq]
      exact List.Subset.refl _
  | delete id =>
    simp only [on, Tables.backend, Tables.apply, Tables.delete]
    cases tables.tasks.any (·.id = id) with
    | true => exact fun task htask => List.mem_of_mem_filter htask
    | false => exact List.Subset.refl _
  | apply applied =>
    rcases Tables.perform_cases (.applyBatch applied) tables with ⟨_, after, happly, heq⟩ | ⟨_, -, heq⟩
    · obtain ⟨-, rfl⟩ := Tables.applyBatch_eq_ok_iff.mp happly
      rw [on, heq]
      exact fun task htask => List.mem_of_mem_filter htask
    · rw [on, heq]
      exact List.Subset.refl _

/-- Whether the loop has found no work twice and has not gone on since. -/
def Phase.Resting {κ : Type} (phase : Phase κ) : Prop := phase = .settling ∨ phase = .asleep

namespace Worker

variable {κ : Type} {w w' : Worker κ} {event : Event κ}

/-- The loop comes to rest by the second answer that there is no work, and no other step brings it
there. -/
theorem LoopStep.resting (h : LoopStep w event w') (hresting : w'.phase.Resting) :
    event = .endProbe (some false) ∨ w.phase.Resting ∧ w'.wakePending = w.wakePending := by
  cases h with
  | endProbe round hasWork hphase =>
    left
    cases hasWork with
    | none => cases round <;> simp [Phase.Resting, afterProbe] at hresting
    | some found =>
      cases found with
      | false => rfl
      | true => cases round <;> simp [Phase.Resting, afterProbe] at hresting
  | sleep hphase hsleep => exact .inr ⟨.inl hphase, rfl⟩
  | endWork succeeded => cases succeeded <;> simp [Phase.Resting] at hresting
  | checkAfterWork | stayAwake | awaken | checkBeforePause | checkAfterPause =>
    unfold unlessStopped at hresting
    split at hresting <;> simp [Phase.Resting] at hresting
  | _ => simp [Phase.Resting] at hresting

/-- A wake-up sets the flag of a running worker. -/
theorem wakePending_of_wakeUp (w : Worker κ) (hrunning : (w.afterCall w.wakeUp).lifecycle = .running) :
    (w.afterCall w.wakeUp).wakePending = true := by
  rw [afterCall_wakeUp] at hrunning ⊢
  split
  · rfl
  · rename_i hother
    rw [if_neg hother] at hrunning
    exact absurd hrunning hother

/-- A running worker rests after an event if it was told that there is no work, is about to wake, or
has rested before with the same flag. -/
theorem Step.resting (h : Step w event w') (horderly : w.Orderly) (hresting : w'.phase.Resting)
    (hrunning : w'.lifecycle = .running) :
    event = .endProbe (some false) ∨ w'.wakePending = true ∨
      w.phase.Resting ∧ w.lifecycle = .running ∧ w'.wakePending = w.wakePending := by
  cases h with
  | reserve hnew =>
    have habsent := (horderly.fresh_of_notStarted hnew).phase
    simp [Phase.Resting, habsent] at hresting
  | cancel i hstarter =>
    have habsent := horderly.oneStart.phase_eq_absent hstarter nofun
    simp [Phase.Resting, release, habsent] at hresting
  | spawn i hstarter => simp [Phase.Resting] at hresting
  | wakeUp | whenIdle => exact .inr (.inl rfl)
  | stop | stopToJoin | failSpawn => cases hrunning
  | loop event w' hloop =>
    rcases hloop.resting hresting with hnone | ⟨hrested, hflag⟩
    · exact .inl hnone
    · have hran : w.lifecycle = .running := hloop.lifecycle_eq ▸ hrunning
      exact .inr (.inr ⟨hrested, hran, hflag⟩)
  | _ => exact .inr (.inr ⟨hresting, hrunning, rfl⟩)

end Worker

namespace Service

variable {κ : Type} {service after : Service κ} {move : Move κ}

/-- Every task in the queue is of a producer that has yet to wake the worker. -/
def Unannounced (service : Service κ) : Prop :=
  ∀ task ∈ service.tables.tasks, ∃ rows ∈ service.unannounced, task ∈ rows

/-- A running loop that rests will notice what is in the queue. -/
structure Noticed (service : Service κ) : Prop where
  orderly : service.worker.Orderly
  noticed : service.worker.phase.Resting → service.worker.lifecycle = .running →
    service.worker.wakePending = true ∨ service.Unannounced

/-- The queue may shrink, and more may be left to announce. -/
theorem Unannounced.mono (h : service.Unannounced) (htasks : after.tables.tasks ⊆ service.tables.tasks)
    (hrows : service.unannounced ⊆ after.unannounced) : after.Unannounced := by
  intro task htask
  obtain ⟨rows, hmem, hrow⟩ := h task (htasks htask)
  exact ⟨rows, hrows hmem, hrow⟩

/-- Where the worker is left alone, the queue may shrink. -/
theorem Noticed.frame (h : service.Noticed) (hworker : after.worker = service.worker)
    (htasks : after.tables.tasks ⊆ service.tables.tasks)
    (hrows : service.unannounced ⊆ after.unannounced) : after.Noticed where
  orderly := hworker ▸ h.orderly
  noticed hresting hrunning := by
    rw [hworker] at hresting hrunning ⊢
    rcases h.noticed hresting hrunning with hpending | hunannounced
    · exact .inl hpending
    · exact .inr (hunannounced.mono htasks hrows)

/-- Every move keeps a loop that rests aware of the queue. -/
theorem Noticed.step (h : service.Noticed) (hstep : Step service move after) : after.Noticed := by
  have horderly := hstep.orderly h.orderly
  cases hstep with
  | change change => exact h.frame rfl (change.tasks_subset service.tables) (List.Subset.refl _)
  | enqueue requests hshops =>
    refine ⟨horderly, fun hresting hrunning => ?_⟩
    apply (h.noticed hresting hrunning).imp_right
    intro hunannounced task htask
    rcases List.mem_append.mp htask with hold | hnew
    · obtain ⟨rows, hmem, hrow⟩ := hunannounced task hold
      exact ⟨rows, List.mem_append_left _ hmem, hrow⟩
    · exact ⟨_, List.mem_append_right _ (List.mem_singleton_self _), hnew⟩
  | announce producer =>
    refine ⟨horderly, fun hresting hrunning => ?_⟩
    exact .inl (Worker.wakePending_of_wakeUp service.worker hrunning)
  | requeue hstarting hshops =>
    have habsent := phase_of_starting h.orderly hstarting
    refine ⟨horderly, fun hresting => ?_⟩
    have hrested : service.worker.phase.Resting := hresting
    simp [Phase.Resting, habsent] at hrested
  | setClock time =>
    exact ⟨horderly, fun hresting hrunning => h.noticed hresting hrunning⟩
  | event event worker hadmits hworker =>
    refine ⟨horderly, fun hresting hrunning => ?_⟩
    rcases hworker.resting h.orderly hresting hrunning with
      rfl | hpending | ⟨hrested, hran, hflag⟩
    · -- The loop has just been told that the queue is empty.
      right
      intro task htask
      rw [tables_turn, tasks_eq_nil_of_admits hadmits] at htask
      cases htask
    · exact .inl hpending
    · rcases h.noticed hrested hran with hpending | hunannounced
      · exact .inl (hflag.trans hpending)
      · exact .inr (hunannounced.mono (by simp) (by simp))
  | stepBatch running source source' stage tables hrunning hsource hstage =>
    exact h.frame rfl hstage.tasks_subset (List.Subset.refl _)
  | _ => exact h.frame rfl (List.Subset.refl _) (List.Subset.refl _)

/-- After every run, a loop that rests will notice what is in the queue. -/
theorem Begins.noticed_run {moves : List (Move κ)} (h : service.Begins)
    (hrun : service.run moves = some after) : after.Noticed := by
  apply run_induct hrun
  · constructor
    · exact h.fresh.orderly
    · intro hresting
      simp [Phase.Resting, h.fresh.phase] at hresting
  · intro move _ s s' hs hstep
    exact hs.step hstep

/-- While a running worker sleeps with no reason to wake, every task in the queue is of a producer
that has yet to wake it. -/
theorem unannounced_of_asleep {moves : List (Move κ)} (hbegins : service.Begins)
    (hrun : service.run moves = some after) (hasleep : after.worker.phase = .asleep)
    (hrunning : after.worker.lifecycle = .running) (hsleep : after.worker.shouldSleep = true) :
    ∀ task ∈ after.tables.tasks, ∃ rows ∈ after.unannounced, task ∈ rows := by
  rcases (hbegins.noticed_run hrun).noticed (.inr hasleep) hrunning with hpending | hunannounced
  · simp [Worker.shouldSleep, hpending] at hsleep
  · exact hunannounced

/-- A task is queued after the loop has found no work for the second time, and the loop sleeps before
its producer wakes it. -/
def queuedAtRest : List (Move Unit) :=
  launched (.failing "out of order") ++
    [.event .beginWork, .stepBatch, .stepBatch, .stepBatch, .stepBatch, .stepBatch,
      .event (.endWork true), .event .countSuccess, .event .checkAfterWork, .event .rearm,
      .event .beginProbe, .event (.endProbe (some false)), .event .collect, .event .endFlush,
      .event .beginProbe, .event (.endProbe (some false)), .change (.addShop firstShop),
      .enqueue [firstRequest], .event .settle]

theorem unannounced_of_asleep_queuedAtRest :
    ∃ after, unconfigured.run queuedAtRest = some after ∧ after.worker.phase = .asleep ∧
      after.tables.tasks.length = 1 ∧
      ∀ task ∈ after.tables.tasks, ∃ rows ∈ after.unannounced, task ∈ rows := by
  have hview : (unconfigured.run queuedAtRest).map (fun after =>
      (after.worker.phase, after.worker.lifecycle, after.worker.shouldSleep,
        after.tables.tasks.length)) = some (.asleep, .running, true, 1) := by cbv
  obtain ⟨after, hrun, hafter⟩ := Option.map_eq_some_iff.mp hview
  simp only [Prod.mk.injEq] at hafter
  obtain ⟨hasleep, hrunning, hsleep, hlength⟩ := hafter
  exact ⟨after, hrun, hasleep, hlength,
    unannounced_of_asleep begins_unconfigured hrun hasleep hrunning hsleep⟩

end Service

end ShopValidation
