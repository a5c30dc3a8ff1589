import ShopValidation.Proofs.Scheduler.InProgress

/-!
# A loop that has the queue for itself

Where no one but the loop takes tasks off the queue, every move is one of five acts: it leaves the
loop alone, makes its thread, or is a step of the loop, of its batch, or of a batch that has lost its
source. `Looping` is what all of them keep: the batch in progress is the loop's, the loop is at work
as long as it lasts, and a batch that has yet to ask has a source to ask.
-/

namespace ShopValidation

namespace Tables

variable {tables : Tables} {reason : Reason} {limit : Nat}

/-- The front of a queue can be picked, since every task has its shop. -/
theorem Sound.exists_select (h : tables.Sound) (reason : Reason) (limit : Nat) :
    ∃ rows, tables.select reason limit = .ok rows := by
  have hshops : ∀ task ∈ (tables.queue reason).take limit, tables.hasShop task.shopId = true := by
    intro task htask
    exact h.task_hasShop task (mem_queue.mp (List.mem_of_mem_take htask)).1
  unfold select
  generalize (tables.queue reason).take limit = tasks at hshops ⊢
  induction tasks with
  | nil => exact ⟨[], rfl⟩
  | cons task tasks ih =>
    obtain ⟨hshop, hrest⟩ := List.forall_mem_cons.mp hshops
    obtain ⟨rows, hrows⟩ := ih hrest
    rw [← isSome_shop?] at hshop
    obtain ⟨shop, hshop⟩ := Option.isSome_iff_exists.mp hshop
    refine ⟨⟨task, shop⟩ :: rows, ?_⟩
    rw [List.mapM_cons, withShop, hshop, hrows]
    rfl

/-- Something is picked where there is room and a task with the reason waits. -/
theorem select_ne_nil {rows : List QueuedTask} {task : Task} (h : tables.select reason limit = .ok rows)
    (hlimit : 0 < limit) (htask : task ∈ tables.tasks) (hreason : task.reason = reason) :
    rows ≠ [] := by
  rintro rfl
  have hwaits : task ∈ tables.queue reason := mem_queue.mpr ⟨htask, hreason⟩
  have hnone : (tables.queue reason).take limit = [] := (select_eq_ok h).1.symm
  rcases List.take_eq_nil_iff.mp hnone with hzero | hnil
  · omega
  · rw [hnil] at hwaits
    cases hwaits

end Tables

namespace Stage

/-- What a batch has in hand: a question is about something, and there are validations to be written,
all of them for picked tasks. -/
def Formed : Stage → Prop
  | .resolving picked => picked ≠ []
  | .applying picked applied =>
    applied ≠ [] ∧ ∀ one ∈ applied, ∃ queued ∈ picked, queued.task.id = one.taskId
  | _ => True

/-- Whether a batch has yet to ask its source. -/
def Unasked : Stage → Prop
  | .selecting _ _ | .resolving _ => True
  | _ => False

variable {batchMax : Nat} {now : Instant} {tables after : Tables} {source source' : Source}
  {stage stage' : Stage}

/-- Every step leaves a batch with something in hand. -/
theorem Step.formed (h : Step batchMax now tables source stage stage' after source') :
    stage'.Formed := by
  cases h with
  | full picked reasons =>
    cases picked with
    | nil => trivial
    | cons queued rest => exact List.cons_ne_nil queued rest
  | ask picked =>
    unfold Stage.answered
    split <;> trivial
  | stamp picked found =>
    unfold Stage.stamped
    split
    · trivial
    · rename_i hsome
      refine ⟨hsome, fun one hone => ?_⟩
      obtain ⟨queued, hqueued, position, -, rfl⟩ := mem_validations_iff.mp hone
      exact ⟨queued, hqueued, rfl⟩
  | _ => trivial

/-- A batch asks once. -/
theorem Step.unasked (h : Step batchMax now tables source stage stage' after source')
    (hunasked : stage'.Unasked) : stage.Unasked := by
  cases h with
  | full | pick | ask => trivial
  | stamp picked found =>
    unfold Stage.stamped at hunasked
    split at hunasked <;> exact hunasked.elim
  | _ => exact hunasked.elim

end Stage

/-- Whether there is a loop and it is not at work. -/
def Phase.idle {κ : Type} : Phase κ → Bool
  | .absent | .working => false
  | _ => true

/-- Whether a move leaves the queue to the loop: no one else takes tasks off it, by hand or by a
batch. -/
def Move.leavesQueue {κ : Type} : Move κ → Bool
  | .beginBatch => false
  | move => move.sparesTasks

/-- A move that leaves the queue to the loop spares the tasks in it. -/
theorem Move.sparesTasks_of_leavesQueue {κ : Type} {move : Move κ} (h : move.leavesQueue = true) :
    move.sparesTasks = true := by
  cases move with
  | beginBatch => cases h
  | _ => exact h

namespace Service

variable {κ : Type} {service after : Service κ} {move : Move κ}

/-- There is a source in place. -/
def Equipped (service : Service κ) : Prop :=
  ∃ place < service.scheduler.sources.length, service.scheduler.installed = some place

/-- Batches stay as large as they are and sources are not taken away. Another one may be put in
place. -/
theorem Step.equipment (h : Step service move after) :
    after.scheduler.batchMax = service.scheduler.batchMax ∧
      service.scheduler.sources.length ≤ after.scheduler.sources.length ∧
      (after.scheduler.installed = service.scheduler.installed ∨ after.Equipped) := by
  cases h with
  | prepare source testing | replace source =>
    have hlonger : service.scheduler.sources.length <
        (service.scheduler.sources ++ [source]).length := by simp
    exact ⟨rfl, Nat.le_of_lt hlonger, .inr ⟨_, hlonger, rfl⟩⟩
  | event event worker =>
    cases event <;> exact ⟨rfl, Nat.le_refl _, .inl rfl⟩
  | stepBatch =>
    exact ⟨rfl, Nat.le_of_eq List.length_set.symm, .inl rfl⟩
  | _ => exact ⟨rfl, Nat.le_refl _, .inl rfl⟩

/-- Once there is a source in place, there always is. -/
theorem Step.equipped (h : Step service move after) (hequipped : service.Equipped) :
    after.Equipped := by
  obtain ⟨place, hplace, hinstalled⟩ := hequipped
  obtain ⟨-, hsources, hsame | hother⟩ := h.equipment
  · exact ⟨place, Nat.lt_of_lt_of_le hplace hsources, hsame.trans hinstalled⟩
  · exact hother

/-- A batch that begins now gets as far as its source. -/
structure Apt (service : Service κ) : Prop where
  equipped : service.Equipped
  fitting : service.scheduler.batchMax * pickedTaskBytes ≤ largestAllocation

/-- A service in which batches get as far as their source stays so. -/
theorem Step.apt (h : Step service move after) (hapt : service.Apt) : after.Apt where
  equipped := h.equipped hapt.equipped
  fitting := by rw [h.equipment.1]; exact hapt.fitting

/-- Rows are queued, if any, and none leaves the queue. -/
def Grows (service after : Service κ) : Prop :=
  ∃ rows, after.tables.tasks = service.tables.tasks ++ rows ∧ after.issued = service.issued ++ rows

/-- Where the queue stays as it is, no rows are queued. -/
theorem Grows.of_eq (htasks : after.tables.tasks = service.tables.tasks)
    (hissued : after.issued = service.issued) : Grows service after :=
  ⟨[], by simp [htasks], by simp [hissued]⟩

/-- A queue that is not empty stays so while it grows. -/
theorem Grows.tasks_ne_nil (h : Grows service after) (hsome : service.tables.tasks ≠ []) :
    after.tables.tasks ≠ [] := by
  obtain ⟨rows, htasks, -⟩ := h
  rw [htasks]
  exact List.append_ne_nil_of_left_ne_nil hsome rows

/-- As many rows are added to the queue as to those that were ever queued. -/
theorem Grows.length_eq (h : Grows service after) :
    after.tables.tasks.length + service.issued.length =
      service.tables.tasks.length + after.issued.length := by
  obtain ⟨rows, htasks, hissued⟩ := h
  rw [htasks, hissued, List.length_append, List.length_append]
  omega

/-- An event of the worker lets the queue stay as it is. -/
theorem grows_turn (service : Service κ) (event : Event κ) (worker : Worker κ) :
    Grows service ((service.turn event).withWorker worker) :=
  .of_eq (by simp) (by cases event <;> rfl)

/-- The loop and its batch are left alone, and no row leaves the queue. -/
structure Aside (service after : Service κ) : Prop where
  phase : after.worker.phase = service.worker.phase
  policy : after.worker.policy = service.worker.policy
  stats : after.worker.stats = service.worker.stats
  running : after.running = service.running
  grows : Grows service after

/-- A move with no part in the loop and the queue leaves both alone. -/
theorem Aside.of_eq (hphase : after.worker.phase = service.worker.phase)
    (hpolicy : after.worker.policy = service.worker.policy)
    (hstats : after.worker.stats = service.worker.stats) (hrunning : after.running = service.running)
    (htasks : after.tables.tasks = service.tables.tasks) (hissued : after.issued = service.issued) :
    Aside service after :=
  ⟨hphase, hpolicy, hstats, hrunning, .of_eq htasks hissued⟩

/-- What moves do where the queue is left to the loop. -/
inductive Act (service : Service κ) : Move κ → Service κ → Prop where
  | aside (move : Move κ) (after : Service κ) (hbatch : move ≠ .stepBatch)
    (hpause : move ≠ .event .pause) (haside : Aside service after) : Act service move after
  | spawn (i : Nat) (worker : Worker κ) (habsent : service.worker.phase = .absent)
    (hphase : worker.phase = .entering) (hstats : worker.stats = service.worker.stats) :
    Act service (.event (.spawn i)) (service.withWorker worker)
  | loop (event : Event κ) (worker : Worker κ) (hadmits : service.admits event = true)
    (hloop : Worker.LoopStep service.worker event worker) :
    Act service (.event event) ((service.turn event).withWorker worker)
  | batch (running : Running) (source source' : Source) (stage : Stage) (tables : Tables)
    (hrunning : service.running = some running)
    (hsource : service.scheduler.sources[running.batch.source]? = some source)
    (hstage : Stage.Step service.scheduler.batchMax service.worker.clock.now service.tables source
      running.batch.stage stage tables source') :
    Act service .stepBatch (service.withStage running stage tables source')
  | lost (running : Running) (hrunning : service.running = some running)
    (hsource : service.scheduler.sources[running.batch.source]? = none) :
    Act service .stepBatch
      { service with
        running := some { running with
          batch := { running.batch with stage := .finished (.error (.refused .notStarted)) } } }

/-- An event of the worker is a step of the loop, makes its thread, or leaves it alone. -/
theorem act_event {event : Event κ} {worker : Worker κ} (hadmits : service.admits event = true)
    (horderly : service.worker.Orderly) (h : Worker.Step service.worker event worker) :
    Act service (.event event) ((service.turn event).withWorker worker) := by
  cases h with
  | loop event worker hloop => exact .loop event worker hadmits hloop
  | spawn i hstarter =>
    exact .spawn i _ (horderly.oneStart.phase_eq_absent hstarter nofun) rfl rfl
  | _ => exact .aside _ _ nofun nofun (.of_eq rfl rfl rfl rfl rfl rfl)

/-- Where the queue is left to the loop and every batch is the loop's, each move is one of the acts. -/
theorem Step.act (h : Step service move after) (hleaves : move.leavesQueue = true)
    (horderly : service.worker.Orderly)
    (hloops : ∀ running, service.running = some running → running.consumer = .loop) :
    Act service move after := by
  cases h with
  | change change =>
    cases change with
    | addShop shop =>
      rcases Change.on_addShop_cases service.tables shop with ⟨-, heq⟩ | heq <;> rw [heq] <;>
        exact .aside _ _ nofun nofun (.of_eq rfl rfl rfl rfl rfl rfl)
    | confirm id position time =>
      rcases Change.on_confirm_cases service.tables id position time with heq | heq <;> rw [heq] <;>
        exact .aside _ _ nofun nofun (.of_eq rfl rfl rfl rfl rfl rfl)
    | delete | apply => cases hleaves
  | enqueue requests => exact .aside _ _ nofun nofun ⟨rfl, rfl, rfl, rfl, _, rfl, rfl⟩
  | requeue => exact .aside _ _ nofun nofun ⟨rfl, rfl, rfl, rfl, _, rfl, rfl⟩
  | announce producer =>
    obtain ⟨hphase, hpolicy, hstats⟩ :
        (service.worker.afterCall service.worker.wakeUp).phase = service.worker.phase ∧
        (service.worker.afterCall service.worker.wakeUp).policy = service.worker.policy ∧
        (service.worker.afterCall service.worker.wakeUp).stats = service.worker.stats := by
      rw [Worker.afterCall_wakeUp]
      split <;> exact ⟨rfl, rfl, rfl⟩
    exact .aside _ _ nofun nofun (.of_eq hphase hpolicy hstats rfl rfl rfl)
  | event event worker hadmits hworker => exact act_event hadmits horderly hworker
  | beginBatch => cases hleaves
  | stepBatch running source source' stage tables hrunning hsource hstage =>
    exact .batch running source source' stage tables hrunning hsource hstage
  | stepBatchLost running hrunning hsource => exact .lost running hrunning hsource
  | endBatch hended =>
    obtain ⟨ending, hending⟩ := Option.isSome_iff_exists.mp hended
    obtain ⟨batch, found, hrunning, -⟩ := ended?_eq_some_iff.mp hending
    cases hloops _ hrunning
  | _ => exact .aside _ _ nofun nofun (.of_eq rfl rfl rfl rfl rfl rfl)

/-- The batch in progress is the loop's, which is at work. It has something in hand, and as long as it
has yet to ask its source there is one. -/
structure Carries (service : Service κ) (running : Running) : Prop where
  consumer : running.consumer = .loop
  phase : service.worker.phase = .working
  formed : running.batch.stage.Formed
  unasked : running.batch.stage.Unasked →
    service.Apt ∧ running.batch.source < service.scheduler.sources.length

/-- A service in which the loop has the queue for itself. -/
structure Looping (service : Service κ) : Prop where
  orderly : service.worker.Orderly
  sound : service.tables.Sound
  fits : service.Fits
  roomy : 0 < service.scheduler.batchMax
  installed : service.scheduler.installed = none ∨ service.Equipped
  carries : ∀ running, service.running = some running → service.Carries running

/-- What is in hand stays so where the phase of the loop does. -/
theorem Carries.step {running : Running} (h : service.Carries running)
    (hstep : Step service move after) (hphase : after.worker.phase = service.worker.phase) :
    after.Carries running where
  consumer := h.consumer
  phase := hphase.trans h.phase
  formed := h.formed
  unasked hunasked := by
    obtain ⟨hapt, hsource⟩ := h.unasked hunasked
    exact ⟨hstep.apt hapt, Nat.lt_of_lt_of_le hsource hstep.equipment.2.1⟩

/-- A batch that begins gets as far as its source if it does not fail at once. -/
theorem unasked_begun (consumer : Consumer)
    (hinstalled : service.scheduler.installed = none ∨ service.Equipped)
    (hunasked : (service.begun consumer).batch.stage.Unasked) :
    service.Apt ∧
      (service.begun consumer).batch.source < service.scheduler.sources.length := by
  unfold begun Scheduler.beginBatch at hunasked ⊢
  rcases hinstalled with hnone | hequipped
  · rw [hnone] at hunasked
    exact hunasked.elim
  · obtain ⟨place, hplace, hsome⟩ := id hequipped
    rw [hsome] at hunasked ⊢
    refine ⟨⟨hequipped, ?_⟩, hplace⟩
    simp only [Stage.first] at hunasked
    split at hunasked
    · assumption
    · exact hunasked.elim

/-- A batch that begins has nothing in hand yet. -/
theorem formed_begun (service : Service κ) (consumer : Consumer) :
    (service.begun consumer).batch.stage.Formed := by
  unfold begun Scheduler.beginBatch
  cases service.scheduler.installed with
  | none => trivial
  | some place =>
    simp only [Stage.first]
    split <;> trivial

/-- The loop begins a batch when it goes to work and is rid of it when it is done. -/
theorem Looping.carries_turn (h : service.Looping) {event : Event κ} {worker : Worker κ}
    (hloop : Worker.LoopStep service.worker event worker) {running : Running}
    (hrunning : ((service.turn event).withWorker worker).running = some running) :
    ((service.turn event).withWorker worker).Carries running := by
  cases hloop with
  | beginWork hphase =>
    cases hrunning
    refine ⟨rfl, rfl, service.formed_begun .loop, fun hunasked => ?_⟩
    obtain ⟨⟨hequipped, hfitting⟩, hsource⟩ := unasked_begun .loop h.installed hunasked
    exact ⟨⟨hequipped, hfitting⟩, hsource⟩
  | endWork => cases hrunning
  | _ =>
    have hother : service.worker.phase ≠ .working := by simp [*]
    exact absurd (h.carries running hrunning).phase hother

/-- Every act keeps a batch in hand, or puts one there. -/
theorem Looping.carries_act (h : service.Looping) (hstep : Step service move after)
    (hact : Act service move after) {running : Running} (hrunning : after.running = some running) :
    after.Carries running := by
  cases hact with
  | aside move after hbatch hpause haside =>
    rw [haside.running] at hrunning
    exact (h.carries running hrunning).step hstep haside.phase
  | spawn i worker habsent =>
    have hworking := (h.carries running hrunning).phase
    rw [habsent] at hworking
    cases hworking
  | loop event worker hadmits hloop => exact h.carries_turn hloop hrunning
  | batch current source source' stage tables hcurrent hsource hstage =>
    cases hrunning
    have hcarries := (h.carries current hcurrent).step hstep rfl
    refine ⟨hcarries.consumer, hcarries.phase, hstage.formed, fun hunasked => ?_⟩
    exact hcarries.unasked (hstage.unasked hunasked)
  | lost current hcurrent hsource =>
    cases hrunning
    have hcarries := h.carries current hcurrent
    exact ⟨hcarries.consumer, hcarries.phase, trivial, False.elim⟩

/-- Where the queue is left to the loop, a move is one of the acts. -/
theorem Looping.act (h : service.Looping) (hstep : Step service move after)
    (hleaves : move.leavesQueue = true) : Act service move after :=
  hstep.act hleaves h.orderly fun running hrunning => (h.carries running hrunning).consumer

/-- A loop that is not at work is left alone or takes a step. -/
theorem Looping.act_of_idle (h : service.Looping) (hact : Act service move after)
    (hidle : service.worker.phase.idle = true) :
    move ≠ .stepBatch ∧ move ≠ .event .pause ∧ Aside service after ∨
    ∃ event worker, move = .event event ∧ Worker.LoopStep service.worker event worker ∧
      after = (service.turn event).withWorker worker := by
  have hnone : ∀ running, service.running ≠ some running := by
    intro running hrunning
    rw [(h.carries running hrunning).phase] at hidle
    cases hidle
  cases hact with
  | aside move after hbatch hpause haside => exact .inl ⟨hbatch, hpause, haside⟩
  | spawn i worker habsent =>
    rw [habsent] at hidle
    cases hidle
  | loop event worker hadmits hloop => exact .inr ⟨event, worker, rfl, hloop, rfl⟩
  | batch running source source' stage tables hrunning => exact absurd hrunning (hnone running)
  | lost running hrunning => exact absurd hrunning (hnone running)

/-- What moves do to a loop with a batch in progress. -/
inductive BatchAct (service : Service κ) (running : Running) : Move κ → Service κ → Prop where
  | aside (move : Move κ) (after : Service κ) (hbatch : move ≠ .stepBatch)
    (hpause : move ≠ .event .pause) (haside : Aside service after) :
    BatchAct service running move after
  | ended (ending : Ending ValidationError Outcome) (worker : Worker κ)
    (hstage : running.batch.stage = .finished ending)
    (hloop : Worker.LoopStep service.worker (.endWork ending.isOk) worker) :
    BatchAct service running (.event (.endWork ending.isOk))
      ((service.turn (.endWork ending.isOk)).withWorker worker)
  | step (source source' : Source) (stage : Stage) (tables : Tables)
    (hstage : Stage.Step service.scheduler.batchMax service.worker.clock.now service.tables source
      running.batch.stage stage tables source') :
    BatchAct service running .stepBatch (service.withStage running stage tables source')
  | lost (hsource : service.scheduler.sources.length ≤ running.batch.source) :
    BatchAct service running .stepBatch
      { service with
        running := some { running with
          batch := { running.batch with stage := .finished (.error (.refused .notStarted)) } } }

/-- A unit of work of the loop ends as its batch has. -/
theorem stage_of_admits {running : Running} {succeeded : Bool}
    (h : service.admits (.endWork succeeded) = true) (hrunning : service.running = some running) :
    ∃ ending, running.batch.stage = .finished ending ∧ ending.isOk = succeeded := by
  obtain ⟨ending, hended, hsame⟩ := (Option.any_eq_true _ _).mp h
  obtain ⟨batch, found, hcurrent, hstage⟩ := ended?_eq_some_iff.mp hended
  obtain rfl := Option.some.inj (hrunning.symm.trans hcurrent)
  exact ⟨ending, hstage, beq_iff_eq.mp hsame⟩

/-- While a batch is in progress the loop does nothing but end it when it has ended. -/
theorem Looping.act_of_running (h : service.Looping) (hact : Act service move after)
    {running : Running} (hrunning : service.running = some running) :
    BatchAct service running move after := by
  have hworking := (h.carries running hrunning).phase
  cases hact with
  | aside move after hbatch hpause haside => exact .aside move after hbatch hpause haside
  | spawn i worker habsent => cases hworking.symm.trans habsent
  | loop event worker hadmits hloop =>
    cases id hloop with
    | endWork succeeded =>
      obtain ⟨ending, hstage, rfl⟩ := stage_of_admits hadmits hrunning
      exact .ended ending _ hstage hloop
    | _ => simp_all
  | batch current source source' stage tables hcurrent hsource hstage =>
    obtain rfl := Option.some.inj (hrunning.symm.trans hcurrent)
    exact .step source source' stage tables hstage
  | lost current hcurrent hsource =>
    obtain rfl := Option.some.inj (hrunning.symm.trans hcurrent)
    exact .lost (List.getElem?_eq_none_iff.mp hsource)

/-- Every move keeps it so where the queue is left to the loop. -/
theorem Looping.step (h : service.Looping) (hstep : Step service move after)
    (hleaves : move.leavesQueue = true) : after.Looping where
  orderly := hstep.orderly h.orderly
  sound := hstep.sound h.sound
  fits := h.fits.step hstep (Move.sparesTasks_of_leavesQueue hleaves)
  roomy := by rw [hstep.equipment.1]; exact h.roomy
  installed := by
    rcases h.installed with hnone | hequipped
    · exact hstep.equipment.2.2.imp_left (·.trans hnone)
    · exact .inr (hstep.equipped hequipped)
  carries _ hrunning := h.carries_act hstep (h.act hstep hleaves) hrunning

/-- The loop of a service that begins has the queue for itself. -/
theorem Begins.looping (h : service.Begins) (htables : service.tables.Reachable) :
    service.Looping := by
  have hfresh := h.fresh
  have hinOrder := h.inOrder htables
  obtain ⟨config, clock, tables, scheduler, hscheduler, rfl⟩ := h
  have hnew : 0 < scheduler.batchMax ∧ scheduler.installed = none := by
    unfold Scheduler.ofConfig at hscheduler
    split at hscheduler <;> cases hscheduler
    exact ⟨Nat.le_max_right _ _, rfl⟩
  exact ⟨hfresh.orderly, hinOrder.accounts.sound, hinOrder.fits, hnew.1, .inl hnew.2, nofun⟩

end Service

end ShopValidation
