import ShopValidation.Proofs.Scheduler.Start

/-!
# Whole calls are runs

A call that nobody interrupts is a run of moves, and so is any number of calls one after another:
starts, with a claim that is given back where need be, other sources, requests, and batches that
their callers carry out. What holds after every run holds after such calls.
-/

namespace ShopValidation

/-- Whether a call is of the scheduler's own, and nothing that comes from outside. -/
def Call.isWhole {σ κ : Type} : Call σ κ → Bool
  | .event _ | .change _ => false
  | _ => true

/-- A batch with no step left has ended. -/
theorem Stage.eq_finished_of_stepsLeft {stage : Stage} (h : stage.stepsLeft = 0) :
    ∃ ending, stage = .finished ending := by
  cases stage with
  | finished ending => exact ⟨ending, rfl⟩
  | _ => simp [stepsLeft] at h

/-- A launch is three events. -/
theorem Worker.run_launch {κ : Type} {w : Worker κ} {i : Nat}
    (hstarter : w.starters[i]? = some .reserved) (hrunning : w.lifecycle = .running) :
    w.run [.clear i, .spawn i, .storeHandle i] = some (w.launch i).2 := by
  have hlt := (List.getElem?_eq_some_iff.mp hstarter).1
  have hclear := clearStart_of_running hstarter hrunning
  simp [step, launch, hclear, spawn, storeHandle, hlt]

namespace Service

variable {κ : Type} {service after : Service κ} {s s' : Scheduler Tables κ}

/-- A run leads to a scheduler and leaves the batch in progress alone. -/
def Reaches (service : Service κ) (s : Scheduler Tables κ) : Prop :=
  ∃ moves after, service.run moves = some after ∧ after.scheduler = s ∧
    after.running = service.running

/-- Without a move everything stays where it is. -/
theorem Reaches.refl (service : Service κ) : service.Reaches service.scheduler :=
  ⟨[], service, rfl, rfl, rfl⟩

/-- A run can be followed by another. -/
theorem Reaches.trans (h : service.Reaches s)
    (hnext : ∀ between : Service κ, between.scheduler = s → between.running = service.running →
      between.Reaches s') : service.Reaches s' := by
  obtain ⟨first, between, hfirst, hscheduler, hrunning⟩ := h
  obtain ⟨rest, after, hrest, hafter, hsame⟩ := hnext between hscheduler hrunning
  refine ⟨first ++ rest, after, ?_, hafter, hsame.trans hrunning⟩
  rw [run_append, hfirst]
  exact hrest

/-- Queueing does to the scheduler what it does to a service. -/
theorem scheduler_enqueue (service : Service κ) (requests : List NewTask) :
    (service.enqueue requests).2.scheduler =
      (service.scheduler.enqueue Tables.backend requests).2 := by
  unfold enqueue
  split <;> simp [*]

/-- Queueing leaves the batch in progress alone. -/
theorem running_enqueue (service : Service κ) (requests : List NewTask) :
    (service.enqueue requests).2.running = service.running := by
  unfold enqueue
  split <;> rfl

/-- A claim is two moves. -/
theorem reaches_claimed (service : Service κ) (source : Source) (testing : Bool)
    (hnew : service.worker.lifecycle = .notStarted) :
    service.Reaches (service.scheduler.claimed source testing) := by
  have hreserve : service.step (.event .reserve) =
      some (service.withWorker
        { service.worker with
          lifecycle := .running
          starters := service.worker.starters ++ [.reserved] }) := by
    simp [step, admits, turn, Worker.step, Worker.afterCall_reserve, hnew]
  refine ⟨[.event .reserve, .prepare source testing],
    { service with scheduler := service.scheduler.claimed source testing }, ?_, rfl, rfl⟩
  rw [run_cons, hreserve]
  simp [step, starting, worker, withWorker]
  rfl

/-- The service once the start in progress has looked for forgotten shops. -/
def surveyed (service : Service κ) : Service κ :=
  { service with forgotten := service.scheduler.forgotten }

/-- The service once the start in progress has queued the tasks for them. -/
def requeued (service : Service κ) : Service κ :=
  { (service.surveyed.enqueue service.scheduler.forgotten).2 with forgotten := [] }

/-- The search for forgotten shops and the queueing of what was found are two moves of a start. -/
theorem reaches_reconcile (service : Service κ) (hstarting : service.starting = true) :
    service.Reaches (service.scheduler.reconcile Tables.backend).2 := by
  have hsurvey : service.step .survey = some service.surveyed := by
    rw [step, if_pos hstarting]
    rfl
  rw [Scheduler.reconcile_eq]
  by_cases hnone : service.scheduler.forgotten.isEmpty = true
  · have hrun : service.run [.survey] = some service.surveyed := by simp [hsurvey]
    rw [if_pos hnone]
    exact ⟨_, _, hrun, rfl, rfl⟩
  · have hboth : (service.surveyed.starting && !service.surveyed.forgotten.isEmpty) = true := by
      have hstill : service.surveyed.starting = true := hstarting
      rw [hstill]
      simpa [surveyed] using hnone
    have hrequeue : service.surveyed.step .requeue = some service.requeued := by
      rw [step, if_pos hboth]
      rfl
    have hrun : service.run [.survey, .requeue] = some service.requeued := by
      simp [hsurvey, hrequeue]
    rw [if_neg hnone]
    exact ⟨_, _, hrun, scheduler_enqueue service.surveyed _, running_enqueue service.surveyed _⟩

/-- A claim that is given back is one move. -/
theorem reaches_abandon (service : Service κ) {i : Nat}
    (hstarter : service.worker.starters[i]? = some .reserved) :
    service.Reaches (service.scheduler.abandon i) := by
  have hcancel : service.scheduler.worker.cancelStart i =
      some { service.worker.release with starters := service.worker.starters.eraseIdx i } := by
    simp only [worker] at hstarter
    simp [Worker.cancelStart, hstarter, worker]
  refine ⟨[.event (.cancel i)], { service with
    forgotten := []
    scheduler := service.scheduler.abandon i }, ?_, rfl, rfl⟩
  simp [step, admits, turn, Worker.step, worker, withWorker, Scheduler.abandon, hcancel]

/-- Where events of the worker mean nothing to the rest of the service, they happen to it as they
happen to the worker. -/
theorem run_events {events : List (Event κ)} {w : Worker κ}
    (hadmits : ∀ event ∈ events, ∀ service : Service κ, service.admits event = true)
    (hturn : ∀ event ∈ events, ∀ service : Service κ, service.turn event = service)
    (hrun : service.worker.run events = some w) :
    service.run (events.map .event) = some (service.withWorker w) := by
  induction events generalizing service with
  | nil =>
    obtain rfl := Option.some.inj hrun
    rfl
  | cons event events ih =>
    obtain ⟨hopen, hadmits⟩ := List.forall_mem_cons.mp hadmits
    obtain ⟨hsame, hturn⟩ := List.forall_mem_cons.mp hturn
    obtain ⟨next, hnext, hrest⟩ := Option.bind_eq_some_iff.mp hrun
    have hstep : service.step (.event event) = some (service.withWorker next) := by
      simp [step, hopen, hsame, hnext]
    rw [List.map_cons, run_cons, hstep]
    exact ih hadmits hturn hrest

/-- A launch of a claim that runs is three moves. -/
theorem reaches_launch (service : Service κ) {i : Nat}
    (hstarter : service.worker.starters[i]? = some .reserved)
    (hrunning : service.worker.lifecycle = .running) :
    service.Reaches (service.scheduler.launch i).2 := by
  have hlaunch := Worker.run_launch hstarter hrunning
  refine ⟨_, _, run_events ?_ ?_ hlaunch, rfl, rfl⟩
  · simp [admits]
  · simp [turn]

/-- Up to its launch, a start is a run that ends with the claim in hand. -/
theorem reaches_reconciled (service : Service κ) (source : Source) (testing : Bool)
    (hnew : service.worker.lifecycle = .notStarted) {ending : Ending StoreError Nat}
    {tables : Tables} (hforgotten : enqueueForgotten Tables.backend service.worker.clock.now
      service.scheduler.maxAge service.tables = (ending, tables)) :
    service.Reaches { service.scheduler.claimed source testing with store := tables } := by
  apply (service.reaches_claimed source testing hnew).trans
  intro between hscheduler _
  have hstarting : between.starting = true := by
    simp [starting, worker, hscheduler, Scheduler.claimed]
  have hreconcile := Scheduler.reconcile_claimed source testing hforgotten
  have hreaches := between.reaches_reconcile hstarting
  rwa [hscheduler, hreconcile] at hreaches

/-- Every start is a run. -/
theorem reaches_start (service : Service κ) (source : Source) (testing : Bool) :
    service.Reaches (service.scheduler.start Tables.backend source testing).2 := by
  rcases service.scheduler.start_cases Tables.backend source testing with
    ⟨hother, error, hstart⟩ | ⟨hnew, failure, tables, hforgotten, hstart⟩ |
    ⟨hnew, count, tables, hforgotten, hstart⟩
  · rw [hstart]
    exact .refl service
  · rw [hstart]
    apply (service.reaches_reconciled source testing hnew hforgotten).trans
    intro between hscheduler _
    have hstarter : between.worker.starters[service.worker.starters.length]? = some .reserved := by
      simp [worker, hscheduler, Scheduler.claimed]
    have hreaches := between.reaches_abandon hstarter
    rwa [hscheduler] at hreaches
  · rw [hstart]
    apply (service.reaches_reconciled source testing hnew hforgotten).trans
    intro between hscheduler _
    have hstarter : between.worker.starters[service.worker.starters.length]? = some .reserved := by
      simp [worker, hscheduler, Scheduler.claimed]
    have hrunning : between.worker.lifecycle = .running := by
      simp [worker, hscheduler, Scheduler.claimed]
    have hreaches := between.reaches_launch hstarter hrunning
    rwa [hscheduler] at hreaches

/-- Requests that are queued, and the wake-up after them, are two moves. -/
theorem reaches_schedule (service : Service κ) (requests : List NewTask) :
    service.Reaches (service.scheduler.schedule Tables.backend requests).2 := by
  unfold Scheduler.schedule
  by_cases hempty : requests.isEmpty = true
  · rw [if_pos hempty]
    exact .refl service
  · rw [if_neg hempty]
    cases henqueue : service.scheduler.enqueue Tables.backend requests with
    | mk ending queued =>
      cases ending with
      | error failure =>
        have hrun : service.run [.enqueue requests] = some { service with scheduler := queued } := by
          simp [step, hempty, enqueue, henqueue]
        exact ⟨_, _, hrun, rfl, rfl⟩
      | ok ids =>
        have hrun : service.run [.enqueue requests, .announce service.unannounced.length] =
            some { service with
              scheduler := queued.announce
              issued := service.issued ++ requests.zipWith NewTask.toTask ids } := by
          simp [step, hempty, enqueue, henqueue, List.eraseIdx_append_of_length_le]
        exact ⟨_, _, hrun, rfl, rfl⟩

/-- Another source that is put in place is one move. -/
theorem reaches_replace (service : Service κ) (source : Source) :
    service.Reaches ((service.scheduler.replaceSource source).toOption.getD service.scheduler) := by
  cases hreplace : service.scheduler.replaceSource source with
  | error error => exact .refl service
  | ok replaced =>
    have hrun : service.run [.replace source] = some { service with scheduler := replaced } := by
      simp [step, hreplace]
    exact ⟨_, _, hrun, rfl, rfl⟩

/-- The steps of a batch by a caller are moves. -/
theorem run_stepsBatch (n : Nat) (service : Service κ) (running : Running)
    (hrunning : service.running = some running) :
    ∃ after found, service.run (List.replicate n .stepBatch) = some after ∧
      after.running =
        some { running with
          batch := (service.scheduler.stepsBatch Tables.backend (fun _ tables => tables) n
            running.batch).2
          found := found } ∧
      after.scheduler = (service.scheduler.stepsBatch Tables.backend (fun _ tables => tables) n
        running.batch).1 := by
  induction n generalizing service running with
  | zero => exact ⟨service, running.found, rfl, hrunning, rfl⟩
  | succ n ih =>
    have hfirst : service.step .stepBatch = some (service.stepBatch running) := by
      simp [step, hrunning]
    obtain ⟨after, found, hrun, hafter, hscheduler⟩ := ih (service.stepBatch running) _ rfl
    refine ⟨after, found, ?_, hafter, hscheduler⟩
    rw [List.replicate_succ, run_cons, hfirst]
    exact hrun

/-- A whole batch by a caller is a run. -/
theorem reaches_processBatch (service : Service κ) (hfree : service.running = none) :
    service.Reaches (service.scheduler.processBatch Tables.backend).2 := by
  unfold Scheduler.processBatch
  cases hbatch : service.scheduler.beginBatch with
  | error error => exact .refl service
  | ok batch =>
    have hbegin : service.step .beginBatch =
        some { service with running := some ⟨.caller, batch, []⟩ } := by
      simp [step, hfree, begun, hbatch]
    obtain ⟨after, found, hsteps, hafter, hscheduler⟩ := run_stepsBatch batch.stage.stepsLeft
      { service with running := some ⟨.caller, batch, []⟩ } ⟨.caller, batch, []⟩ rfl
    have hleft := Scheduler.stepsLeft_stepsBatch_le Tables.backend (fun _ tables => tables)
      batch.stage.stepsLeft service.scheduler batch
    rw [Nat.sub_self, Nat.le_zero] at hleft
    obtain ⟨ending, hstage⟩ := Stage.eq_finished_of_stepsLeft hleft
    have hend : after.step .endBatch = some { after with running := none } := by
      simp [step, ended?_eq_some_iff.mpr ⟨_, _, hafter, hstage⟩]
    have hrun : service.run (.beginBatch :: (List.replicate batch.stage.stepsLeft .stepBatch ++
        [.endBatch])) = some { after with running := none } := by
      rw [run_cons, hbegin, Option.bind_some, run_append, hsteps, Option.bind_some, run_cons, hend]
      rfl
    exact ⟨_, _, hrun, hscheduler, hfree.symm⟩

/-- A whole call is a run. -/
theorem reaches_perform (service : Service κ) (hfree : service.running = none)
    {call : Call Tables κ} (hwhole : call.isWhole = true) :
    service.Reaches (service.scheduler.perform Tables.backend call) := by
  cases call with
  | start source testing => exact service.reaches_start source testing
  | replace source => exact service.reaches_replace source
  | schedule requests => exact service.reaches_schedule requests
  | processBatch => exact service.reaches_processBatch hfree
  | event | change => cases hwhole

/-- Whole calls, one after another, are a run. -/
theorem reaches_performAll (service : Service κ) (hfree : service.running = none)
    {calls : List (Call Tables κ)} (hwhole : ∀ call ∈ calls, call.isWhole = true) :
    service.Reaches (service.scheduler.performAll Tables.backend calls) := by
  induction calls generalizing service with
  | nil => exact .refl service
  | cons call calls ih =>
    obtain ⟨hfirst, hrest⟩ := List.forall_mem_cons.mp hwhole
    apply (service.reaches_perform hfree hfirst).trans
    intro between hscheduler hrunning
    have hreaches := ih between (hrunning.trans hfree) hrest
    rwa [hscheduler] at hreaches

end Service

end ShopValidation
