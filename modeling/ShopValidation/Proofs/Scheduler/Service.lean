import ShopValidation.Proofs.Scheduler.BatchStep
import ShopValidation.Proofs.Worker.Lifecycle
import ShopValidation.Scheduler.State

/-!
# A scheduler in service

A scheduler on tables in memory, with everything that goes on around it: producers queue tasks and
wake the worker in a second step, starts are claimed, carried out or given back, the loop runs, and
batches are carried out one at a time, by the loop or by a caller. Each of these is a `Move`, no
larger than one critical section, and the moves of a run come in any order.

A service also keeps the rows that were ever queued and the batches that were ever written, which no
move looks at.
-/

namespace ShopValidation

/-- Who carries out a batch. -/
inductive Consumer where
  | loop
  | caller
deriving DecidableEq

/-- A batch in progress, with what the source has answered, once it has. -/
structure Running where
  consumer : Consumer
  batch : Batch
  found : List Resolved := []

/-- A batch that was written: what the source had answered, and the validations. -/
structure Written where
  found : List Resolved
  applied : List Applied

/-- Whether a batch that was written is done with a task. -/
def Written.completes (written : Written) (id : TaskId) : Bool := written.applied.any (·.taskId = id)

/-- A scheduler and what goes on around it. -/
structure Service (κ : Type) where
  scheduler : Scheduler Tables κ
  /-- The rows of each producer that has not woken the worker since it queued them. -/
  unannounced : List (List Task) := []
  /-- The tasks for forgotten shops that the start in progress is about to queue. -/
  forgotten : List NewTask := []
  /-- The batch in progress. -/
  running : Option Running := none
  /-- Every row that was ever queued. -/
  issued : List Task := []
  /-- Every batch that was ever written. -/
  written : List Written := []

/-- What others do to the store. They queue nothing. -/
inductive Change where
  | addShop (shop : NewShop)
  | confirm (id : ShopId) (position : Coordinates) (time : Instant)
  | delete (id : TaskId)
  | apply (applied : List Applied)

/-- The tables after a change by others. -/
def Change.on (tables : Tables) : Change → Tables
  | .addShop shop => (Tables.backend.perform (.insertShop shop) tables).2
  | .confirm id position time => (Tables.backend.perform (.confirm id position time) tables).2
  | .delete id => (Tables.backend.perform (.delete id) tables).2
  | .apply applied => (Tables.backend.perform (.applyBatch applied) tables).2

/-- Others add a shop at a location of its own, or nothing happens. -/
theorem Change.on_addShop_cases (tables : Tables) (shop : NewShop) :
    ((∀ old ∈ tables.shops, old.locationUid ≠ shop.locationUid) ∧
      (Change.addShop shop).on tables =
        { tables with
          shops := tables.shops ++ [shop.toShop ⟨tables.lastShopId + 1⟩]
          lastShopId := tables.lastShopId + 1 }) ∨
    (Change.addShop shop).on tables = tables := by
  rcases Tables.perform_cases (.insertShop shop) tables with
    ⟨id, after, happly, heq⟩ | ⟨error, -, heq⟩
  · obtain ⟨hfree, -, rfl⟩ := Tables.insertShop_eq_ok_iff.mp happly
    exact .inl ⟨hfree, congrArg Prod.snd heq⟩
  · exact .inr (congrArg Prod.snd heq)

/-- Others confirm the coordinates of a shop, or nothing happens. -/
theorem Change.on_confirm_cases (tables : Tables) (id : ShopId) (position : Coordinates)
    (time : Instant) :
    (Change.confirm id position time).on tables = tables.confirmShop id position time ∨
    (Change.confirm id position time).on tables = tables := by
  simp only [on, Tables.backend, Tables.apply]
  cases tables.hasShop id with
  | true => exact .inl rfl
  | false => exact .inr rfl

/-- What can happen to a service. -/
inductive Move (κ : Type) where
  /-- Others change the store. -/
  | change (change : Change)
  /-- A producer queues requests. -/
  | enqueue (requests : List NewTask)
  /-- A producer wakes the worker after it has queued its requests. -/
  | announce (producer : Nat)
  /-- The start in progress puts its source in place. -/
  | prepare (source : Source) (testing : Bool)
  /-- The start in progress looks for forgotten shops. -/
  | survey
  /-- The start in progress queues the tasks for them. -/
  | requeue
  /-- A caller puts another source in place. -/
  | replace (source : Source)
  /-- Time passes. -/
  | setClock (time : Instant)
  /-- Something happens to the worker. -/
  | event (event : Event κ)
  /-- A caller begins a batch. -/
  | beginBatch
  /-- The batch in progress takes a step. -/
  | stepBatch
  /-- The batch of a caller ends. -/
  | endBatch

namespace Scheduler

variable {σ κ : Type}

/-- What a claimed start does before it looks for forgotten shops. -/
def prepare (s : Scheduler σ κ) (source : Source) (testing : Bool) : Scheduler σ κ :=
  { s with testing := s.testing || testing }.install source

/-- The tasks for the shops that are forgotten now. -/
def forgotten (s : Scheduler Tables κ) : List NewTask :=
  (s.store.needing true (staleBefore? s.worker.clock.now s.maxAge)).map
    (·.reconciling s.worker.clock.now)

/-- A scheduler that is not started has a fresh worker and no source, and testing is allowed as
configured. -/
theorem ofConfig_eq_ok {config : ValidationConfig} {clock : ManualClock} {store : σ}
    {s : Scheduler σ κ} (h : ofConfig config clock store = .ok s) :
    s.worker.Fresh ∧ s.sources = [] ∧ s.testing = config.testing := by
  unfold ofConfig at h
  split at h <;> cases h
  exact ⟨Worker.fresh_mk .., rfl, rfl⟩

/-- A claim is the reservation of the worker, and what the start does next. -/
theorem claim_eq (s : Scheduler σ κ) (source : Source) (testing : Bool) :
    s.claim source testing =
      s.worker.reserve.map fun worker =>
        (s.worker.starters.length, { s with worker := worker }.prepare source testing) := by
  unfold claim
  cases s.worker.reserve <;> rfl

/-- Queueing the forgotten shops is the search for them, and the queueing of what was found. -/
theorem reconcile_eq (s : Scheduler Tables κ) :
    s.reconcile Tables.backend =
      if s.forgotten.isEmpty then (.ok 0, s)
      else
        let (ending, s) := s.enqueue Tables.backend s.forgotten
        (ending.map List.length, s) := by
  unfold reconcile enqueueForgotten enqueueForgottenNanos forgotten staleBefore?
  simp only [Tables.backend, Tables.apply]
  cases s.store.needing true (cutoff? s.worker.clock.now (inNanos s.maxAge)) with
  | nil => rfl
  | cons shop shops =>
    simp only [List.map_cons, List.isEmpty_cons, enqueue]
    rcases s.store.insertBatch _ with error | answer <;> rfl

end Scheduler

/-- The answer of the source at the stage right after it. -/
def Stage.found? : Stage → Option (List Resolved)
  | .stamping _ found => some found
  | _ => none

/-- What a batch has written by the step that brought it to a stage. -/
def Running.written (running : Running) (after : Stage) : List Written :=
  match running.batch.stage, after with
  | .applying _ applied, .finished (.ok _) => [⟨running.found, applied⟩]
  | _, _ => []

namespace Service

variable {κ : Type}

/-- The tables in service. -/
def tables (service : Service κ) : Tables := service.scheduler.store

/-- The worker in service. -/
def worker (service : Service κ) : Worker κ := service.scheduler.worker

/-- The service with other tables. -/
def withTables (service : Service κ) (tables : Tables) : Service κ :=
  { service with scheduler := { service.scheduler with store := tables } }

/-- The service with another worker. -/
def withWorker (service : Service κ) (worker : Worker κ) : Service κ :=
  { service with scheduler := { service.scheduler with worker := worker } }

/-- Whether a start is claimed and not launched. -/
def starting (service : Service κ) : Bool := service.worker.starters.contains .reserved

/-- Queue requests. Answers the new rows, or none where a shop is missing. -/
def enqueue (service : Service κ) (requests : List NewTask) : Option (List Task) × Service κ :=
  match service.scheduler.enqueue Tables.backend requests with
  | (.ok ids, scheduler) =>
    let rows := requests.zipWith NewTask.toTask ids
    (some rows, { service with scheduler := scheduler, issued := service.issued ++ rows })
  | (.error _, scheduler) => (none, { service with scheduler := scheduler })

/-- A batch that begins now. Without a source it has failed at once. -/
def begun (service : Service κ) (consumer : Consumer) : Running where
  consumer := consumer
  batch :=
    match service.scheduler.beginBatch with
    | .ok batch => batch
    | .error error => ⟨0, .finished (.error (.refused error))⟩

/-- How the batch of a consumer has ended, if it has. -/
def ended? (service : Service κ) (consumer : Consumer) : Option (Ending ValidationError Outcome) :=
  match service.running with
  | some ⟨owner, ⟨_, .finished ending⟩, _⟩ => if owner = consumer then some ending else none
  | _ => none

/-- Whether an event of the worker fits the rest of the service: a batch of the loop begins while
none is in progress and ends as it has ended, and the question for more work is answered by the
queue. -/
def admits (service : Service κ) : Event κ → Bool
  | .beginWork => service.running.isNone
  | .endWork succeeded => (service.ended? .loop).any (·.isOk == succeeded)
  | .endProbe hasWork => (service.scheduler.hasWork Tables.backend).1.toOption == hasWork
  | _ => true

/-- What an event of the worker means for the rest of the service. -/
def turn (service : Service κ) : Event κ → Service κ
  | .beginWork => { service with running := some (service.begun .loop) }
  | .endWork _ => { service with running := none }
  | .cancel _ => { service with forgotten := [] }
  | _ => service

/-- The batch in progress after one more step. -/
def stepBatch (service : Service κ) (running : Running) : Service κ :=
  let (scheduler, batch) := service.scheduler.stepBatch Tables.backend running.batch
  { service with
    scheduler := scheduler
    running := some { running with batch := batch, found := batch.stage.found?.getD running.found }
    written := service.written ++ running.written batch.stage }

/-- What a service is after a move, if the move can happen. -/
def step (service : Service κ) : Move κ → Option (Service κ)
  | .change change => some (service.withTables (change.on service.tables))
  | .enqueue requests =>
    if requests.isEmpty then none
    else
      match service.enqueue requests with
      | (some rows, service) => some { service with unannounced := service.unannounced ++ [rows] }
      | (none, service) => some service
  | .announce producer =>
    if producer < service.unannounced.length then
      some { service with
        scheduler := service.scheduler.announce
        unannounced := service.unannounced.eraseIdx producer }
    else none
  | .prepare source testing =>
    if service.starting then
      some { service with scheduler := service.scheduler.prepare source testing }
    else none
  | .survey =>
    if service.starting then some { service with forgotten := service.scheduler.forgotten } else none
  | .requeue =>
    if service.starting && !service.forgotten.isEmpty then
      some { (service.enqueue service.forgotten).2 with forgotten := [] }
    else none
  | .replace source =>
    match service.scheduler.replaceSource source with
    | .ok scheduler => some { service with scheduler := scheduler }
    | .error _ => some service
  | .setClock time =>
    some (service.withWorker { service.worker with clock := service.worker.clock.set time })
  | .event event =>
    if service.admits event then (service.worker.step event).map (service.turn event).withWorker
    else none
  | .beginBatch =>
    if service.running.isNone then some { service with running := some (service.begun .caller) }
    else none
  | .stepBatch => service.running.map service.stepBatch
  | .endBatch =>
    if (service.ended? .caller).isSome then some { service with running := none } else none

/-- What a service is after a sequence of moves, if they can happen in this order. -/
def run (service : Service κ) (moves : List (Move κ)) : Option (Service κ) := moves.foldlM step service

@[simp] theorem run_nil (service : Service κ) : service.run [] = some service := rfl

@[simp] theorem run_cons (service : Service κ) (move : Move κ) (moves : List (Move κ)) :
    service.run (move :: moves) = (service.step move).bind (·.run moves) := rfl

/-- A run can be cut at any place. -/
theorem run_append (service : Service κ) (before later : List (Move κ)) :
    service.run (before ++ later) = (service.run before).bind (·.run later) :=
  List.foldlM_append

/-- The service with the rows of requests in the queue. -/
def withRows (service : Service κ) (requests : List NewTask) : Service κ :=
  { service.withTables (service.tables.enqueue requests).2 with
    issued := service.issued ++ service.tables.newRows requests }

/-- The service after its batch has taken a step. -/
def withStage (service : Service κ) (running : Running) (stage : Stage) (tables : Tables)
    (source : Source) : Service κ :=
  { service with
    scheduler := { service.scheduler with
      store := tables
      sources := service.scheduler.sources.set running.batch.source source }
    running := some { running with
      batch := { running.batch with stage := stage }
      found := stage.found?.getD running.found }
    written := service.written ++ running.written stage }

/-- What a move does to a service. -/
inductive Step (service : Service κ) : Move κ → Service κ → Prop where
  | change (change : Change) : Step service (.change change) (service.withTables (change.on service.tables))
  | enqueue (requests : List NewTask)
    (hshops : ∀ request ∈ requests, service.tables.hasShop request.shopId = true) :
    Step service (.enqueue requests)
      { service.withRows requests with
        unannounced := service.unannounced ++ [service.tables.newRows requests] }
  | enqueueRefused (requests : List NewTask) : Step service (.enqueue requests) service
  | announce (producer : Nat) :
    Step service (.announce producer)
      { service with
        scheduler := service.scheduler.announce
        unannounced := service.unannounced.eraseIdx producer }
  | prepare (source : Source) (testing : Bool) (hstarting : service.starting = true) :
    Step service (.prepare source testing)
      { service with scheduler := service.scheduler.prepare source testing }
  | survey (hstarting : service.starting = true) :
    Step service .survey { service with forgotten := service.scheduler.forgotten }
  | requeue (hstarting : service.starting = true)
    (hshops : ∀ request ∈ service.forgotten, service.tables.hasShop request.shopId = true) :
    Step service .requeue { service.withRows service.forgotten with forgotten := [] }
  | requeueRefused (hstarting : service.starting = true) :
    Step service .requeue { service with forgotten := [] }
  | replace (source : Source) :
    Step service (.replace source) { service with scheduler := service.scheduler.install source }
  | replaceRefused (source : Source) : Step service (.replace source) service
  | setClock (time : Instant) :
    Step service (.setClock time)
      (service.withWorker { service.worker with clock := service.worker.clock.set time })
  | event (event : Event κ) (worker : Worker κ) (hadmits : service.admits event = true)
    (hstep : Worker.Step service.worker event worker) :
    Step service (.event event) ((service.turn event).withWorker worker)
  | beginBatch (hfree : service.running = none) :
    Step service .beginBatch { service with running := some (service.begun .caller) }
  | stepBatch (running : Running) (source source' : Source) (stage : Stage) (tables : Tables)
    (hrunning : service.running = some running)
    (hsource : service.scheduler.sources[running.batch.source]? = some source)
    (hstage : Stage.Step service.scheduler.batchMax service.worker.clock.now service.tables source
      running.batch.stage stage tables source') :
    Step service .stepBatch (service.withStage running stage tables source')
  | stepBatchLost (running : Running) (hrunning : service.running = some running)
    (hsource : service.scheduler.sources[running.batch.source]? = none) :
    Step service .stepBatch
      { service with
        running := some { running with
          batch := { running.batch with stage := .finished (.error (.refused .notStarted)) } } }
  | endBatch (hended : (service.ended? .caller).isSome = true) :
    Step service .endBatch { service with running := none }

/-- Requests are queued where all their shops are there, and nothing happens otherwise. -/
theorem enqueue_cases (service : Service κ) (requests : List NewTask) :
    (∀ request ∈ requests, service.tables.hasShop request.shopId = true) ∧
      service.enqueue requests = (some (service.tables.newRows requests), service.withRows requests) ∨
    service.enqueue requests = (none, service) := by
  cases hinsert : service.tables.insertBatch requests with
  | ok answer =>
    left
    obtain ⟨ids, after⟩ := answer
    obtain ⟨hshops, henqueue⟩ := Tables.insertBatch_eq_ok_iff.mp hinsert
    refine ⟨hshops, ?_⟩
    rw [Tables.enqueue_eq] at henqueue
    obtain ⟨rfl, rfl⟩ := Prod.mk.inj henqueue
    have hscheduler : service.scheduler.enqueue Tables.backend requests =
        (.ok ((service.tables.newRows requests).map Task.id),
          (service.withTables (service.tables.enqueue requests).2).scheduler) := by
      simp only [Scheduler.enqueue, Tables.backend, Tables.apply]
      rw [← tables, hinsert]
      rfl
    simp only [enqueue, hscheduler, Tables.zipWith_toTask_ids]
    rfl
  | error error =>
    right
    simp only [enqueue, Scheduler.enqueue, Tables.backend, Tables.apply]
    rw [← tables, hinsert]
    rfl

variable {service after : Service κ} {move : Move κ}

/-- A step of the batch in progress is a step of its stage. -/
theorem step_stepBatch (running : Running) (hrunning : service.running = some running) :
    Step service .stepBatch (service.stepBatch running) := by
  unfold stepBatch Scheduler.stepBatch
  cases hsource : service.scheduler.sources[running.batch.source]? with
  | none =>
    have hlost := Step.stepBatchLost running hrunning hsource
    simpa [Running.written, Stage.found?] using hlost
  | some source => exact .stepBatch running source _ _ _ hrunning hsource (.of_step rfl)

/-- Every move that happens is one of the rules. -/
theorem Step.of_step (h : service.step move = some after) : Step service move after := by
  cases move with
  | change change =>
    cases h
    exact .change change
  | enqueue requests =>
    obtain ⟨-, h⟩ := Option.ite_none_left_eq_some.mp h
    rcases service.enqueue_cases requests with ⟨hshops, henqueue⟩ | henqueue
    · rw [henqueue] at h
      cases h
      exact .enqueue requests hshops
    · rw [henqueue] at h
      cases h
      exact .enqueueRefused requests
  | announce producer =>
    obtain ⟨-, h⟩ := Option.ite_none_right_eq_some.mp h
    cases h
    exact .announce producer
  | prepare source testing =>
    obtain ⟨hstarting, h⟩ := Option.ite_none_right_eq_some.mp h
    cases h
    exact .prepare source testing hstarting
  | survey =>
    obtain ⟨hstarting, h⟩ := Option.ite_none_right_eq_some.mp h
    cases h
    exact .survey hstarting
  | requeue =>
    obtain ⟨hboth, h⟩ := Option.ite_none_right_eq_some.mp h
    have hstarting := (Bool.and_eq_true_iff.mp hboth).1
    rcases service.enqueue_cases service.forgotten with ⟨hshops, henqueue⟩ | henqueue
    · rw [henqueue] at h
      cases h
      exact .requeue hstarting hshops
    · rw [henqueue] at h
      cases h
      exact .requeueRefused hstarting
  | replace source =>
    simp only [step, Scheduler.replaceSource] at h
    split at h
    · rename_i hallowed
      split at hallowed <;> cases hallowed
      cases h
      exact .replace source
    · cases h
      exact .replaceRefused source
  | setClock time =>
    cases h
    exact .setClock time
  | event event =>
    obtain ⟨hadmits, h⟩ := Option.ite_none_right_eq_some.mp h
    obtain ⟨worker, hworker, rfl⟩ := Option.map_eq_some_iff.mp h
    exact .event event worker hadmits (.of_step hworker)
  | beginBatch =>
    obtain ⟨hfree, h⟩ := Option.ite_none_right_eq_some.mp h
    cases h
    exact .beginBatch (Option.isNone_iff_eq_none.mp hfree)
  | stepBatch =>
    obtain ⟨running, hrunning, rfl⟩ := Option.map_eq_some_iff.mp h
    exact step_stepBatch running hrunning
  | endBatch =>
    obtain ⟨hended, h⟩ := Option.ite_none_right_eq_some.mp h
    cases h
    exact .endBatch hended

/-- What holds at the beginning and is kept by every move of a run holds after it. -/
theorem run_induct {P : Service κ → Prop} {moves : List (Move κ)} (h : service.run moves = some after)
    (hbegin : P service) (hstep : ∀ move ∈ moves, ∀ s s', P s → Step s move s' → P s') : P after := by
  induction moves generalizing service with
  | nil => exact Option.some.inj h ▸ hbegin
  | cons move moves ih =>
    rw [run_cons] at h
    obtain ⟨next, hnext, h⟩ := Option.bind_eq_some_iff.mp h
    have hfirst : P next := hstep move List.mem_cons_self service next hbegin (.of_step hnext)
    apply ih h hfirst
    intro other hother
    exact hstep other (List.mem_cons_of_mem _ hother)

/-- While a start is claimed and not launched there is no thread. -/
theorem phase_of_starting (h : service.worker.Orderly) (hstarting : service.starting = true) :
    service.worker.phase = .absent := by
  obtain ⟨i, hi⟩ := List.mem_iff_getElem?.mp (List.contains_iff_mem.mp hstarting)
  exact h.oneStart.phase_eq_absent hi nofun

/-- An event of the worker leaves the tables alone. -/
@[simp] theorem tables_turn (service : Service κ) (event : Event κ) (worker : Worker κ) :
    ((service.turn event).withWorker worker).tables = service.tables := by
  cases event <;> rfl

/-- An event of the worker announces nothing. -/
@[simp] theorem unannounced_turn (service : Service κ) (event : Event κ) (worker : Worker κ) :
    ((service.turn event).withWorker worker).unannounced = service.unannounced := by
  cases event <;> rfl

/-- Every move keeps the starts of the worker in order. -/
theorem Step.orderly (h : Step service move after) (horderly : service.worker.Orderly) :
    after.worker.Orderly := by
  cases h with
  | announce producer =>
    have hwake : Worker.Step service.worker .wakeUp _ := .of_step rfl
    exact horderly.step hwake
  | setClock time => exact horderly.withClock _
  | event event worker hadmits hworker => exact horderly.step hworker
  | _ => exact horderly

/-- Every move keeps the rules of the tables. -/
theorem Step.sound (h : Step service move after) (hsound : service.tables.Sound) :
    after.tables.Sound := by
  cases h with
  | change change =>
    cases change with
    | addShop shop => exact hsound.perform (.insertShop shop)
    | confirm id position time => exact hsound.perform (.confirm id position time)
    | delete id => exact hsound.perform (.delete id)
    | apply applied => exact hsound.perform (.applyBatch applied)
  | enqueue requests hshops => exact hsound.enqueue hshops
  | requeue hstarting hshops => exact hsound.enqueue hshops
  | event event worker =>
    rw [tables_turn]
    exact hsound
  | stepBatch running source source' stage tables hrunning hsource hstage => exact hstage.sound hsound
  | _ => exact hsound

/-- The batch of a consumer has ended where it is in progress and at its last stage. -/
theorem ended?_eq_some_iff {consumer : Consumer} {ending : Ending ValidationError Outcome} :
    service.ended? consumer = some ending ↔
      ∃ batch found, service.running = some ⟨consumer, batch, found⟩ ∧
        batch.stage = .finished ending := by
  unfold ended?
  constructor
  · intro h
    split at h
    · rename_i owner place other found hrunning
      obtain ⟨rfl, hsame⟩ := Option.ite_none_right_eq_some.mp h
      cases hsame
      exact ⟨_, found, hrunning, rfl⟩
    · cases h
  · rintro ⟨⟨place, stage⟩, found, hrunning, hstage⟩
    cases hstage
    simp [hrunning]

/-- The answer that there is no work is given where the queue is empty. -/
theorem tasks_eq_nil_of_admits (h : service.admits (.endProbe (some false)) = true) :
    service.tables.tasks = [] := by
  have hanswer : some (!service.tables.tasks.isEmpty) = some false := beq_iff_eq.mp h
  simpa using hanswer

/-- A service that begins: a scheduler that is not started, and nothing else. -/
def Begins (service : Service κ) : Prop :=
  ∃ config clock tables scheduler, Scheduler.ofConfig config clock tables = .ok scheduler ∧
    service = { scheduler := scheduler }

/-- The worker of a service that begins is fresh. -/
theorem Begins.fresh (h : service.Begins) : service.worker.Fresh := by
  obtain ⟨config, clock, tables, scheduler, hscheduler, rfl⟩ := h
  exact (Scheduler.ofConfig_eq_ok hscheduler).1

/-- A service that begins has no source. -/
theorem Begins.sources (h : service.Begins) : service.scheduler.sources = [] := by
  obtain ⟨config, clock, tables, scheduler, hscheduler, rfl⟩ := h
  exact (Scheduler.ofConfig_eq_ok hscheduler).2.1

/-- A service on empty tables, configured as where nothing is set. -/
def unconfigured : Service Unit where
  scheduler :=
    { worker :=
        { name := Scheduler.workerName
          policy := ⟨defaultDelays, 0, nofun, by decide⟩
          clock := { now := .epoch } }
      store := {}
      testing := false
      batchMax := 20
      maxAge := none }

/-- It begins with the configuration that has every default. -/
theorem begins_unconfigured : unconfigured.Begins := ⟨{}, { now := .epoch }, {}, _, rfl, rfl⟩

/-- A shop without coordinates at the first node of the map. -/
def firstShop : NewShop where
  locationUid := ⟨.node, "1", rfl⟩
  creator := ⟨0, by decide⟩
  createdAt := .epoch

/-- A request to look where it is. -/
def firstRequest : NewTask where
  shopId := ⟨1⟩
  source := ⟨0, by decide⟩
  reason := .shopMoved
  enqueuedAt := .epoch

/-- A start with nothing to reconcile, up to the point where the loop runs. -/
def launched (source : Source) : List (Move Unit) :=
  [.event .reserve, .prepare source false, .survey, .event (.clear 0), .event (.spawn 0),
    .event (.storeHandle 0), .event .enter]

end Service

end ShopValidation
