import ShopValidation.Proofs.Scheduler.Looping

/-!
# What comes of a question

A loop that has the queue for itself puts one question to its source in a batch, if any. The question
is unsettled until one of the tasks that it is about is off the queue, or a failure is counted. A loop
that has asked finds a source and a task for its next batch too, as long as no task leaves the queue.
-/

namespace ShopValidation

/-- One move of a run, with the service before and after it. -/
structure Turn (κ : Type) where
  before : Service κ
  move : Move κ
  after : Service κ

namespace Turn

variable {κ : Type} {turn : Turn κ} {picked : List QueuedTask}

/-- The tasks about which the loop asks its source in this turn, if it does. -/
def question? (turn : Turn κ) : Option (List QueuedTask) :=
  match turn.move, turn.before.running with
  | .stepBatch, some ⟨.loop, ⟨place, .resolving picked⟩, _⟩ =>
    if place < turn.before.scheduler.sources.length then some picked else none
  | _, _ => none

/-- The pause that the loop makes in this turn, if it does. -/
def pause? (turn : Turn κ) : Option Duration :=
  match turn.move, turn.before.worker.phase with
  | .event .pause, .pausing delay => some delay
  | _, _ => none

/-- In this turn the batch of the loop with these tasks takes one of them off the queue. -/
structure Removes (turn : Turn κ) (picked : List QueuedTask) : Prop where
  move : turn.move = .stepBatch
  running : ∃ running applied, turn.before.running = some running ∧ running.consumer = .loop ∧
    running.batch.stage = .applying picked applied
  gone : ∃ queued ∈ picked, (∃ task ∈ turn.before.tables.tasks, task.id = queued.task.id) ∧
    ∀ task ∈ turn.after.tables.tasks, task.id ≠ queued.task.id

/-- A source is asked what the turn says, and sources are only added otherwise. -/
structure Exact (turn : Turn κ) : Prop where
  asked : ∀ picked, turn.question? = some picked → ∃ place source,
    turn.before.scheduler.sources[place]? = some source ∧
      turn.after.scheduler.sources =
        turn.before.scheduler.sources.set place (source.ask (pickedUids picked)).2
  unasked : turn.question? = none →
    turn.before.scheduler.sources <+: turn.after.scheduler.sources

/-- The loop asks where its batch is about to and has a source. -/
theorem question?_eq_some_iff :
    turn.question? = some picked ↔
      turn.move = .stepBatch ∧ ∃ running, turn.before.running = some running ∧
        running.consumer = .loop ∧ running.batch.stage = .resolving picked ∧
        running.batch.source < turn.before.scheduler.sources.length := by
  unfold question?
  constructor
  · intro h
    split at h
    · rename_i place asked found hmove hrunning
      obtain ⟨hplace, hsame⟩ := Option.ite_none_right_eq_some.mp h
      cases hsame
      exact ⟨hmove, _, hrunning, rfl, rfl, hplace⟩
    · cases h
  · rintro ⟨hmove, ⟨consumer, ⟨place, stage⟩, found⟩, hrunning, hconsumer, hstage, hplace⟩
    cases hconsumer
    cases hstage
    simpa [hmove, hrunning] using hplace

/-- The loop does not ask in the turn in which it takes a task off the queue. -/
theorem Removes.question?_eq_none (h : turn.Removes picked) : turn.question? = none := by
  rw [Option.eq_none_iff_forall_ne_some]
  intro asked hquestion
  obtain ⟨running, applied, hrunning, -, happlying⟩ := h.running
  obtain ⟨-, current, hcurrent, -, hresolving, -⟩ := question?_eq_some_iff.mp hquestion
  obtain rfl := Option.some.inj (hrunning.symm.trans hcurrent)
  cases happlying.symm.trans hresolving

/-- Nothing is asked but by a step of a batch. -/
theorem question?_eq_none (h : turn.move ≠ .stepBatch) : turn.question? = none := by
  rw [Option.eq_none_iff_forall_ne_some]
  intro picked hquestion
  exact h (question?_eq_some_iff.mp hquestion).1

/-- Where no batch takes a step, nothing is asked. -/
theorem Exact.of_extended (h : turn.move ≠ .stepBatch)
    (hsources : turn.before.scheduler.sources <+: turn.after.scheduler.sources) : turn.Exact where
  asked picked hquestion := by cases (question?_eq_none h).symm.trans hquestion
  unasked _ := hsources

/-- There is no pause but where the loop pauses. -/
theorem pause?_eq_none (h : turn.move ≠ .event .pause) : turn.pause? = none := by
  unfold pause?
  split
  · contradiction
  · rfl

/-- There is no pause unless the loop is about to make one. -/
theorem pause?_eq_none_of_phase (h : ∀ delay, turn.before.worker.phase ≠ .pausing delay) :
    turn.pause? = none := by
  unfold pause?
  split
  · rename_i delay hmove hphase
    exact absurd hphase (h delay)
  · rfl

end Turn

namespace Stage

variable {batchMax : Nat} {now : Instant} {tables after : Tables} {source source' : Source}
  {stage stage' : Stage} {picked : List QueuedTask}

/-- Whether a batch has asked about these tasks and is not written yet, or has failed. -/
def Unsettled (picked : List QueuedTask) : Stage → Prop
  | .stamping asked _ | .applying asked _ => asked = picked
  | .finished (.error _) => True
  | _ => False

/-- Whether a batch is going to ask: it has picked something or will, since a task waits for one of the
reasons that come next. -/
def Asking (tables : Tables) : Stage → Prop
  | .selecting picked reasons => picked ≠ [] ∨ ∃ task ∈ tables.tasks, task.reason ∈ reasons
  | .resolving _ => True
  | _ => False

/-- A batch that is going to ask has not done so. -/
theorem Asking.unasked (h : stage.Asking tables) : stage.Unasked := by
  cases stage with
  | selecting | resolving => trivial
  | _ => exact h.elim

/-- A batch is going to ask also where more is queued. -/
theorem Asking.mono (h : stage.Asking tables) (htasks : tables.tasks ⊆ after.tasks) :
    stage.Asking after := by
  cases stage with
  | selecting picked reasons =>
    apply Or.imp_right _ h
    rintro ⟨task, htask, hreason⟩
    exact ⟨task, htasks htask, hreason⟩
  | resolving => trivial
  | _ => exact h.elim

/-- A batch that begins is going to ask where anything is queued. -/
theorem asking_first (hfitting : batchMax * pickedTaskBytes ≤ largestAllocation)
    (htasks : tables.tasks ≠ []) : (Stage.first batchMax).Asking tables := by
  obtain ⟨task, htask⟩ := List.exists_mem_of_ne_nil _ htasks
  rw [Stage.first, if_pos hfitting]
  exact .inr ⟨task, htask, task.reason.mem_byPriority⟩

/-- A step of a batch leaves the tables alone unless it is the writing of its validations. -/
theorem Step.tables_eq_or_written (h : Step batchMax now tables source stage stage' after source') :
    after = tables ∨
    ∃ picked applied, stage = .applying picked applied ∧
      tables.applyBatch applied = .ok ((), after) := by
  cases h with
  | write picked applied after happly => exact .inr ⟨picked, applied, rfl, happly⟩
  | _ => exact .inl rfl

/-- A batch that asks is unsettled, whatever the source replies. -/
theorem Step.unsettled_of_resolving
    (h : Step batchMax now tables source (.resolving picked) stage' after source') :
    stage'.Unsettled picked ∧ after = tables := by
  cases h
  unfold Stage.answered
  split
  · exact ⟨rfl, rfl⟩
  · exact ⟨trivial, rfl⟩
  · exact ⟨trivial, rfl⟩

/-- A batch that is unsettled stays so unless it is written. -/
theorem Step.unsettled (h : Step batchMax now tables source stage stage' after source')
    (hunsettled : stage.Unsettled picked) :
    stage'.Unsettled picked ∧ after = tables ∨
    ∃ applied, stage = .applying picked applied ∧ tables.applyBatch applied = .ok ((), after) := by
  cases h with
  | full | pick | pickRefused | ask => exact hunsettled.elim
  | stamp asked found =>
    obtain rfl : asked = picked := hunsettled
    left
    unfold Stage.stamped
    split
    · exact ⟨trivial, rfl⟩
    · exact ⟨rfl, rfl⟩
  | write asked applied after happly =>
    obtain rfl : asked = picked := hunsettled
    exact .inr ⟨applied, rfl, happly⟩
  | writeRefused => exact .inl ⟨trivial, rfl⟩
  | rest ending => exact .inl ⟨hunsettled, rfl⟩

/-- A batch that is going to ask does so, or is one step nearer to it. -/
theorem Step.asking (h : Step batchMax now tables source stage stage' after source')
    (hsound : tables.Sound) (hroomy : 0 < batchMax) (hasking : stage.Asking tables) :
    (∃ picked, stage = .resolving picked) ∨ stage'.Asking after ∧ after = tables := by
  cases h with
  | full picked reasons hfull =>
    have hpicked : picked ≠ [] := by
      rintro rfl
      rcases hfull with rfl | hfull
      · rcases hasking with hnil | ⟨task, -, hreason⟩
        · exact hnil rfl
        · cases hreason
      · exact absurd hfull (Nat.not_le_of_lt hroomy)
    obtain ⟨queued, rest, rfl⟩ := List.exists_cons_of_ne_nil hpicked
    exact .inr ⟨trivial, rfl⟩
  | pick picked rows reason reasons hroom hselect =>
    refine .inr ⟨?_, rfl⟩
    rcases hasking with hpicked | ⟨task, htask, hreason⟩
    · exact .inl (List.append_ne_nil_of_left_ne_nil hpicked rows)
    · rcases List.mem_cons.mp hreason with hnow | hlater
      · have hrows := Tables.select_ne_nil hselect (Nat.sub_pos_of_lt hroom) htask hnow
        exact .inl (List.append_ne_nil_of_right_ne_nil picked hrows)
      · exact .inr ⟨task, htask, hlater⟩
  | pickRefused picked reason reasons error hroom hselect =>
    obtain ⟨rows, hrows⟩ := hsound.exists_select reason (batchMax - picked.length)
    cases hselect.symm.trans hrows
  | ask picked => exact .inl ⟨picked, rfl⟩
  | _ => exact hasking.elim

/-- A step of a batch leaves the source alone unless it is the question. -/
theorem Step.source_eq_or_resolving
    (h : Step batchMax now tables source stage stage' after source') :
    source' = source ∨ ∃ picked, stage = .resolving picked := by
  cases h with
  | ask picked => exact .inr ⟨picked, rfl⟩
  | _ => exact .inl rfl

end Stage

namespace Service

variable {κ : Type} {service after : Service κ} {move : Move κ} {picked : List QueuedTask}

/-- Where every batch is the loop's, a turn tells exactly what is asked. -/
theorem Step.exact (h : Step service move after)
    (hloops : ∀ running, service.running = some running → running.consumer = .loop) :
    Turn.Exact ⟨service, move, after⟩ := by
  cases h with
  | prepare source testing | replace source => exact .of_extended nofun (List.prefix_append _ _)
  | event event worker => exact .of_extended nofun (by cases event <;> exact List.prefix_rfl)
  | stepBatch running source source' stage tables hrunning hsource hstage =>
    constructor
    · intro picked hquestion
      obtain ⟨-, current, hcurrent, -, hresolving, -⟩ := Turn.question?_eq_some_iff.mp hquestion
      obtain rfl := Option.some.inj (hrunning.symm.trans hcurrent)
      rw [hresolving] at hstage
      cases hstage
      exact ⟨running.batch.source, source, hsource, rfl⟩
    · intro hquestion
      obtain ⟨hplace, hat⟩ := List.getElem?_eq_some_iff.mp hsource
      rcases hstage.source_eq_or_resolving with rfl | ⟨picked, hresolving⟩
      · subst hat
        exact ⟨[], (List.append_nil _).trans (List.set_getElem_self hplace).symm⟩
      · have hasks : (Turn.mk service .stepBatch
            (service.withStage running stage tables source')).question? = some picked :=
          Turn.question?_eq_some_iff.mpr
            ⟨rfl, running, hrunning, hloops running hrunning, hresolving, hplace⟩
        cases hquestion.symm.trans hasks
  | stepBatchLost running hrunning hsource =>
    constructor
    · intro picked hquestion
      obtain ⟨-, current, hcurrent, -, -, hplace⟩ := Turn.question?_eq_some_iff.mp hquestion
      obtain rfl := Option.some.inj (hrunning.symm.trans hcurrent)
      exact absurd hplace (Nat.not_lt_of_le (List.getElem?_eq_none_iff.mp hsource))
    · exact fun _ => List.prefix_rfl
  | _ => exact .of_extended nofun List.prefix_rfl

/-- The question of a batch has been put and what came of it is not counted yet. -/
def Unsettled (picked : List QueuedTask) (service : Service κ) : Prop :=
  (∃ running, service.running = some running ∧ running.batch.stage.Unsettled picked) ∨
    service.worker.phase = .failed

/-- Fewer tasks are in the queue, and no rows were queued. -/
structure Shrinks (service after : Service κ) : Prop where
  tasks : after.tables.tasks.length < service.tables.tasks.length
  issued : after.issued = service.issued

/-- Where the loop has the queue for itself, a batch that is written takes one of its tasks off the
queue. -/
theorem Looping.removes (h : service.Looping) {running : Running} {applied : List Applied}
    {stage : Stage} {tables : Tables} {source : Source} (hrunning : service.running = some running)
    (hstage : running.batch.stage = .applying picked applied)
    (happly : service.tables.applyBatch applied = .ok ((), tables)) :
    Turn.Removes ⟨service, .stepBatch, service.withStage running stage tables source⟩ picked ∧
      Shrinks service (service.withStage running stage tables source) := by
  have hcarries := h.carries running hrunning
  have hformed := hcarries.formed
  have hfits := h.fits running hrunning
  rw [hstage] at hformed hfits
  obtain ⟨hsome, hpicked⟩ := hformed
  obtain ⟨one, hone⟩ := List.exists_mem_of_ne_nil _ hsome
  obtain ⟨queued, hqueued, hid⟩ := hpicked one hone
  obtain ⟨task, htask, htaskId, -⟩ := hfits one hone
  have hnamed : queued.task.id ∈ applied.map Applied.taskId := hid ▸ List.mem_map_of_mem hone
  have hsame : task.id = queued.task.id := htaskId.trans hid.symm
  obtain ⟨-, rfl⟩ := Tables.applyBatch_eq_ok_iff.mp happly
  have hgone : ∀ other ∈ service.tables.tasks.filter (·.id ∉ applied.map Applied.taskId),
      other.id ≠ queued.task.id := by
    intro other hother hsameId
    have hunnamed := of_decide_eq_true (List.mem_filter.mp hother).2
    exact hunnamed (hsameId ▸ hnamed)
  have hfewer : (service.tables.tasks.filter (·.id ∉ applied.map Applied.taskId)).length <
      service.tables.tasks.length :=
    List.length_filter_lt_length_iff_exists.mpr ⟨task, htask, by simpa [hsame] using hnamed⟩
  refine ⟨⟨rfl, ?_, queued, hqueued, ⟨task, htask, hsame⟩, hgone⟩, hfewer, rfl⟩
  exact ⟨running, applied, hrunning, hcarries.consumer, hstage⟩

/-- Where the loop has the queue for itself, it only shrinks by a batch. -/
theorem Looping.grows_or_shrinks (h : service.Looping) (hact : Act service move after) :
    Grows service after ∨ Shrinks service after := by
  cases hact with
  | aside move after hbatch hpause haside => exact .inl haside.grows
  | spawn | lost => exact .inl (.of_eq rfl rfl)
  | loop event worker => exact .inl (service.grows_turn event worker)
  | batch running source source' stage tables hrunning hsource hstage =>
    rcases hstage.tables_eq_or_written with heq | ⟨picked, applied, happlying, happly⟩
    · exact .inl (.of_eq (congrArg Tables.tasks heq) rfl)
    · exact .inr (h.removes hrunning happlying happly).2

/-- No failure that was counted is forgotten. -/
theorem Act.failures_le (h : Act service move after) :
    service.worker.stats.failures ≤ after.worker.stats.failures := by
  cases h with
  | aside move after hbatch hpause haside =>
    exact Nat.le_of_eq (congrArg WorkerStats.failures haside.stats.symm)
  | spawn i worker habsent hphase hstats =>
    exact Nat.le_of_eq (congrArg WorkerStats.failures hstats.symm)
  | loop event worker hadmits hloop =>
    change service.worker.stats.failures ≤ worker.stats.failures
    cases hloop with
    | countFailure => exact Nat.le_succ _
    | _ => exact Nat.le_refl _
  | batch | lost => exact Nat.le_refl _

/-- How a move bears on a question of the loop: a task about which it was is off the queue, nothing has
come of it yet, or a failure is counted. -/
inductive Settling (picked : List QueuedTask) (service : Service κ) (move : Move κ)
    (after : Service κ) : Prop where
  | removed (hremoves : Turn.Removes ⟨service, move, after⟩ picked) (hshrinks : Shrinks service after)
  | unsettled (hgrows : Grows service after) (hunsettled : after.Unsettled picked)
    (hpolicy : after.worker.policy = service.worker.policy)
  | charged (hgrows : Grows service after)
    (hphase : after.worker.phase = .charged service.worker.policy.delay)
    (hfailures : service.worker.stats.failures < after.worker.stats.failures)

/-- A batch that has asked is written or fails in the end. -/
theorem Looping.settling_of_running (h : service.Looping) (hact : Act service move after)
    {running : Running} (hrunning : service.running = some running)
    (hstage : running.batch.stage.Unsettled picked) : Settling picked service move after := by
  cases h.act_of_running hact hrunning with
  | aside move after hbatch hpause haside =>
    have hsame := haside.running.trans hrunning
    exact .unsettled haside.grows (.inl ⟨running, hsame, hstage⟩) haside.policy
  | ended ending worker hending hloop =>
    rw [hending] at hstage
    cases ending with
    | ok outcome => exact hstage.elim
    | error failure =>
      cases hloop
      exact .unsettled (.of_eq rfl rfl) (.inr rfl) rfl
  | step source source' stage tables hstep =>
    rcases hstep.unsettled hstage with ⟨hunsettled, heq⟩ | ⟨applied, happlying, happly⟩
    · exact .unsettled (.of_eq (congrArg Tables.tasks heq) rfl) (.inl ⟨_, rfl, hunsettled⟩) rfl
    · obtain ⟨hremoves, hshrinks⟩ := h.removes hrunning happlying happly
      exact .removed hremoves hshrinks
  | lost => exact .unsettled (.of_eq rfl rfl) (.inl ⟨_, rfl, trivial⟩) rfl

/-- A batch that has failed is counted next. -/
theorem Looping.settling_of_failed (h : service.Looping) (hact : Act service move after)
    (hfailed : service.worker.phase = .failed) : Settling picked service move after := by
  have hidle : service.worker.phase.idle = true := by rw [hfailed]; rfl
  rcases h.act_of_idle hact hidle with ⟨-, -, haside⟩ | ⟨event, worker, rfl, hloop, rfl⟩
  · exact .unsettled haside.grows (.inr (haside.phase.trans hfailed)) haside.policy
  · cases hloop with
    | countFailure => exact .charged (.of_eq rfl rfl) rfl (Nat.lt_succ_self _)
    | _ => simp_all

/-- A question is unsettled until a task is off the queue or a failure is counted. -/
theorem Looping.settling (h : service.Looping) (hact : Act service move after)
    (hunsettled : service.Unsettled picked) : Settling picked service move after := by
  rcases hunsettled with ⟨running, hrunning, hstage⟩ | hfailed
  · exact h.settling_of_running hact hrunning hstage
  · exact h.settling_of_failed hact hfailed

/-- The loop asks only while it is at work. -/
theorem Looping.question?_eq_none (h : service.Looping) (hphase : service.worker.phase ≠ .working) :
    (Turn.mk service move after).question? = none := by
  rw [Option.eq_none_iff_forall_ne_some]
  intro picked hquestion
  obtain ⟨-, running, hrunning, -⟩ := Turn.question?_eq_some_iff.mp hquestion
  exact hphase (h.carries running hrunning).phase

/-- The loop does not ask while a question is unsettled. -/
theorem Unsettled.question?_eq_none (h : service.Unsettled picked) (hlooping : service.Looping) :
    (Turn.mk service move after).question? = none := by
  rcases h with ⟨running, hrunning, hstage⟩ | hfailed
  · rw [Option.eq_none_iff_forall_ne_some]
    intro asked hquestion
    obtain ⟨-, current, hcurrent, -, hresolving, -⟩ := Turn.question?_eq_some_iff.mp hquestion
    obtain rfl := Option.some.inj (hrunning.symm.trans hcurrent)
    rw [hresolving] at hstage
    exact hstage
  · exact hlooping.question?_eq_none (by simp [hfailed])

/-- The loop does not pause while a question is unsettled. -/
theorem Unsettled.pause?_eq_none (h : service.Unsettled picked) (hlooping : service.Looping) :
    (Turn.mk service move after).pause? = none := by
  rcases h with ⟨running, hrunning, -⟩ | hfailed
  · exact Turn.pause?_eq_none_of_phase (by simp [(hlooping.carries running hrunning).phase])
  · exact Turn.pause?_eq_none_of_phase (by simp [hfailed])

/-- Batches get as far as their source, and there is something to ask about. -/
structure Supplied (service : Service κ) : Prop where
  apt : service.Apt
  tasks : service.tables.tasks ≠ []

/-- A loop is supplied as long as no task leaves the queue. -/
theorem Supplied.step (h : service.Supplied) (hstep : Step service move after)
    (hgrows : Grows service after) : after.Supplied where
  apt := hstep.apt h.apt
  tasks := hgrows.tasks_ne_nil h.tasks

/-- A loop that asks is supplied, and its question is unsettled afterwards. -/
theorem Looping.unsettled_of_question (h : service.Looping) (hact : Act service move after)
    (hquestion : (Turn.mk service move after).question? = some picked) :
    service.Supplied ∧ Grows service after ∧ after.Unsettled picked ∧
      after.worker = service.worker := by
  obtain ⟨rfl, running, hrunning, -, hstage, hplace⟩ := Turn.question?_eq_some_iff.mp hquestion
  have hcarries := h.carries running hrunning
  have hunasked : running.batch.stage.Unasked := by simp [hstage, Stage.Unasked]
  have htasks : service.tables.tasks ≠ [] := by
    have hformed := hcarries.formed
    have hfits := h.fits running hrunning
    rw [hstage] at hformed hfits
    obtain ⟨queued, hqueued⟩ := List.exists_mem_of_ne_nil _ hformed
    exact List.ne_nil_of_mem (hfits queued hqueued).1
  refine ⟨⟨(hcarries.unasked hunasked).1, htasks⟩, ?_⟩
  cases h.act_of_running hact hrunning with
  | aside move after hbatch => exact absurd rfl hbatch
  | step source source' stage tables hstep =>
    rw [hstage] at hstep
    obtain ⟨hunsettled, heq⟩ := hstep.unsettled_of_resolving
    exact ⟨.of_eq (congrArg Tables.tasks heq) rfl, .inl ⟨_, rfl, hunsettled⟩, rfl⟩
  | lost hsource => exact absurd hplace (Nat.not_lt_of_le hsource)

end Service

end ShopValidation
