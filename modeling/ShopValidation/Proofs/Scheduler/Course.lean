import ShopValidation.Proofs.Scheduler.Resolution
import ShopValidation.Proofs.Scheduler.Selection

/-!
# The course of a whole batch

A batch that nobody interrupts goes through its stages on its own. `Scheduler.selected` are the tasks
about which it asks its source, and `Scheduler.Ends` says how it ends from a stage on. The picking
stages lead to the front of the agenda, and a source that answers every location leads from there to
the end.
-/

namespace ShopValidation

/-- The tasks about which a batch asks at this stage. -/
def Stage.asks? : Stage → Option (List QueuedTask)
  | .resolving picked => some picked
  | _ => none

/-- Whether a source has a position for every location that it is asked for. -/
def Source.Complete (source : Source) : Prop :=
  ∀ n uids, ∃ found, source.reply n uids = .answered found ∧
    ∀ uid ∈ uids, ∃ resolved ∈ found, resolved.uid = uid

/-- Where every location has a position all picked tasks are located. -/
theorem located_eq_self {picked : List QueuedTask} {found : List Resolved}
    (hfound : ∀ uid ∈ pickedUids picked, ∃ resolved ∈ found, resolved.uid = uid) :
    located picked found = picked := by
  refine List.filter_eq_self.mpr fun queued hqueued => ?_
  obtain ⟨resolved, hresolved, huid⟩ := hfound _ (mem_pickedUids_iff.mpr ⟨queued, hqueued, rfl⟩)
  exact List.any_eq_true.mpr ⟨resolved, hresolved, decide_eq_true huid⟩

/-- What was picked beside its shops can be written, which takes what was located off the queue. -/
theorem Tables.Sound.exists_applyBatch {tables : Tables} (h : tables.Sound) (tasks : List Task)
    (found : List Resolved) (now : Instant) :
    ∃ after, tables.applyBatch (validations (tables.beside tasks) found now) = .ok ((), after) ∧
      after.Sound ∧ after.tasks =
        tables.tasks.filter (·.id ∉ (located (tables.beside tasks) found).map (·.task.id)) := by
  have hshops : ∀ queued ∈ tables.beside tasks, queued.shop ∈ tables.shops := fun queued hqueued =>
    (mem_of_shop? (mem_beside hqueued).2).1
  obtain ⟨after, happly, hafter⟩ : ∃ after,
      tables.applyBatch (validations (tables.beside tasks) found now) = .ok ((), after) ∧
        after.tasks =
          tables.tasks.filter (·.id ∉ (located (tables.beside tasks) found).map (·.task.id)) :=
    ⟨_, applyBatch_validations hshops found now, rfl⟩
  have hwrite : tables.apply (.applyBatch (validations (tables.beside tasks) found now)) =
      .ok ((), after) := happly
  exact ⟨after, happly, h.apply hwrite, hafter⟩

namespace Scheduler

/-- The stages through which a batch goes with nothing in between. -/
def stages {σ κ : Type} (backend : Backend σ) : Nat → Scheduler σ κ → Batch → List Stage
  | 0, _, _ => []
  | n + 1, s, batch =>
    batch.stage :: stages backend n (s.stepBatch backend batch).1 (s.stepBatch backend batch).2

variable {κ : Type} {s after : Scheduler Tables κ} {batch : Batch} {place : Nat}
  {source source' : Source} {stage : Stage} {tables : Tables} {picked : List QueuedTask}
  {asks : Option (List QueuedTask)} {ending : Ending ValidationError Outcome}

/-- The tasks about which a whole batch asks its source, none where it does not ask. -/
def selected (s : Scheduler Tables κ) : List QueuedTask :=
  match s.beginBatch with
  | .error _ => []
  | .ok batch =>
    ((s.stages Tables.backend batch.stage.stepsLeft batch).findSome? Stage.asks?).getD []

/-- How a batch ends that nobody interrupts: what it asks from this stage on, its ending, and the
scheduler after it. -/
structure Ends (s : Scheduler Tables κ) (batch : Batch) (asks : Option (List QueuedTask))
    (ending : Ending ValidationError Outcome) (after : Scheduler Tables κ) : Prop where
  steps : ∀ n, batch.stage.stepsLeft ≤ n →
    s.stepsBatch Tables.backend (fun _ store => store) n batch =
      (after, ⟨batch.source, .finished ending⟩)
  asks : ∀ n, batch.stage.stepsLeft ≤ n →
    (s.stages Tables.backend n batch).findSome? Stage.asks? = asks

/-- A step of a batch with its source does to the scheduler what it does to the store. -/
theorem stepBatch_eq (hsource : s.sources[batch.source]? = some source)
    (hstep : batch.stage.step Tables.backend s.batchMax s.worker.clock.now s.store source =
      (stage, tables, source')) :
    s.stepBatch Tables.backend batch =
      ({ s with store := tables, sources := s.sources.set batch.source source' },
        ⟨batch.source, stage⟩) := by
  simp only [stepBatch, hsource, hstep]

/-- A step that does not ask leaves the sources alone. -/
theorem stepBatch_eq_of_source (hsource : s.sources[batch.source]? = some source)
    (hstep : batch.stage.step Tables.backend s.batchMax s.worker.clock.now s.store source =
      (stage, tables, source)) :
    s.stepBatch Tables.backend batch = ({ s with store := tables }, ⟨batch.source, stage⟩) := by
  obtain ⟨hlt, hsame⟩ := List.getElem?_eq_some_iff.mp hsource
  rw [stepBatch_eq hsource hstep, ← hsame, List.set_getElem_self hlt]

/-- A batch that has ended stays so. -/
theorem ends_finished (hsource : s.sources[batch.source]? = some source)
    (hstage : batch.stage = .finished ending) : Ends s batch none ending s := by
  obtain ⟨place, stage⟩ := batch
  subst hstage
  have hstep : s.stepBatch Tables.backend ⟨place, .finished ending⟩ =
      (s, ⟨place, .finished ending⟩) := stepBatch_eq_of_source hsource rfl
  constructor
  · intro n _
    induction n with
    | zero => rfl
    | succ n ih =>
      rw [stepsBatch, hstep]
      exact ih (Nat.zero_le n)
  · intro n _
    induction n with
    | zero => rfl
    | succ n ih =>
      rw [stages, hstep]
      exact ih (Nat.zero_le n)

/-- A batch ends as it does after its next step. -/
theorem Ends.cons (hleft : 0 < batch.stage.stepsLeft)
    (hstep : s.stepBatch Tables.backend batch = (after, ⟨batch.source, stage⟩))
    {last : Scheduler Tables κ} (hends : Ends after ⟨batch.source, stage⟩ asks ending last) :
    Ends s batch (batch.stage.asks?.or asks) ending last := by
  have hle : stage.stepsLeft ≤ batch.stage.stepsLeft - 1 := by
    have hle := stepsLeft_stepBatch_le Tables.backend s batch
    rwa [hstep] at hle
  constructor
  · intro n hn
    obtain ⟨m, rfl⟩ := Nat.exists_eq_succ_of_ne_zero (Nat.ne_of_gt (Nat.lt_of_lt_of_le hleft hn))
    rw [stepsBatch, hstep]
    exact hends.steps m (Nat.le_trans hle (Nat.sub_le_of_le_add hn))
  · intro n hn
    obtain ⟨m, rfl⟩ := Nat.exists_eq_succ_of_ne_zero (Nat.ne_of_gt (Nat.lt_of_lt_of_le hleft hn))
    rw [stages, hstep, List.findSome?_cons, hends.asks m (Nat.le_trans hle (Nat.sub_le_of_le_add hn))]
    cases batch.stage.asks? <;> rfl

/-- A step that only moves the batch on leaves the scheduler as it is. -/
theorem Ends.cons_of_store (hleft : 0 < batch.stage.stepsLeft)
    (hsource : s.sources[batch.source]? = some source)
    (hstep : batch.stage.step Tables.backend s.batchMax s.worker.clock.now s.store source =
      (stage, s.store, source))
    (hends : Ends s ⟨batch.source, stage⟩ asks ending after) :
    Ends s batch (batch.stage.asks?.or asks) ending after :=
  .cons hleft (stepBatch_eq_of_source hsource hstep) hends

/-- The picking stages lead to the front of the queues, one after another, and never pick more than
fits. What every one of their steps takes over from the next stage holds of them where it holds of
the last. -/
theorem selecting_induct {motive : Stage → Prop} (source : Source) (hsound : s.store.Sound)
    (hback : ∀ picked reasons next, picked.length ≤ s.batchMax →
      (Stage.selecting picked reasons).step Tables.backend s.batchMax s.worker.clock.now s.store
        source = (next, s.store, source) → motive next → motive (.selecting picked reasons))
    {reasons : List Reason} (hroom : picked.length ≤ s.batchMax)
    (hlast : motive (.picked (picked ++ s.store.beside
      ((reasons.flatMap s.store.queue).take (s.batchMax - picked.length))))) :
    motive (.selecting picked reasons) := by
  induction reasons generalizing picked with
  | nil =>
    rw [List.flatMap_nil, List.take_nil] at hlast
    simp only [Tables.beside, List.filterMap_nil, List.append_nil] at hlast
    exact hback picked [] _ hroom rfl hlast
  | cons reason reasons ih =>
    by_cases hfull : s.batchMax ≤ picked.length
    · rw [Nat.sub_eq_zero_of_le hfull, List.take_zero] at hlast
      simp only [Tables.beside, List.filterMap_nil, List.append_nil] at hlast
      refine hback picked _ _ hroom ?_ hlast
      rw [Stage.step, if_pos hfull]
    · have hqueue : s.store.queue reason ⊆ s.store.tasks := fun task htask =>
        (Tables.mem_queue.mp htask).1
      have hwithin : (picked ++ s.store.beside
          ((s.store.queue reason).take (s.batchMax - picked.length))).length ≤ s.batchMax := by
        have hfront := List.Subset.trans
          (List.take_subset (s.batchMax - picked.length) (s.store.queue reason)) hqueue
        rw [List.length_append, hsound.length_beside hfront, List.length_take]
        omega
      rw [List.flatMap_cons, hsound.beside_take_append hqueue, ← List.append_assoc,
        Nat.sub_sub, ← List.length_append] at hlast
      refine hback picked _ _ hroom ?_ (ih hwithin hlast)
      rw [Stage.step, if_neg hfull]
      simp only [Tables.backend, Tables.apply, hsound.select_eq]
      rfl

/-- A batch that is picking ends as it does from the front of the queues on. -/
theorem ends_selecting (hsound : s.store.Sound) (hsource : s.sources[place]? = some source)
    {reasons : List Reason} (hroom : picked.length ≤ s.batchMax)
    (hends : Ends s ⟨place, .picked (picked ++ s.store.beside
      ((reasons.flatMap s.store.queue).take (s.batchMax - picked.length)))⟩ asks ending after) :
    Ends s ⟨place, .selecting picked reasons⟩ asks ending after := by
  refine selecting_induct (motive := fun stage => Ends s ⟨place, stage⟩ asks ending after) source
    hsound (fun picked reasons next _ hstep hnext => ?_) hroom hends
  exact .cons_of_store (by simp [Stage.stepsLeft]) hsource hstep hnext

/-- Validations that can be written are, and the batch is done. -/
theorem ends_applying (hsource : s.sources[place]? = some source) (picked : List QueuedTask)
    {applied : List Applied}
    (happly : s.store.applyBatch applied = .ok ((), tables)) :
    Ends s ⟨place, .applying picked applied⟩ none (.ok ⟨picked.length, applied.length⟩)
      { s with store := tables } := by
  have hstep : (Stage.applying picked applied).step Tables.backend s.batchMax s.worker.clock.now
      s.store source = (.finished (.ok ⟨picked.length, applied.length⟩), tables, source) := by
    simp only [Stage.step, Tables.backend, Tables.apply, happly]
  have hfinished : Ends { s with store := tables }
      ⟨place, .finished (.ok ⟨picked.length, applied.length⟩)⟩ none
      (.ok ⟨picked.length, applied.length⟩) { s with store := tables } :=
    ends_finished hsource rfl
  exact .cons (by simp [Stage.stepsLeft]) (stepBatch_eq_of_source hsource hstep) hfinished

/-- A source that answers every location leads from its question to the end, where the validations can
be written. -/
theorem ends_resolving (hsource : s.sources[place]? = some source) (hsome : picked ≠ [])
    {found : List Resolved}
    (hreply : source.reply source.asked.length (pickedUids picked) = .answered found)
    (hfound : ∀ uid ∈ pickedUids picked, ∃ resolved ∈ found, resolved.uid = uid)
    (happly : s.store.applyBatch (validations picked found s.worker.clock.now) = .ok ((), tables)) :
    Ends s ⟨place, .resolving picked⟩ (some picked) (.ok ⟨picked.length, picked.length⟩)
      { s with
        store := tables
        sources := s.sources.set place (source.ask (pickedUids picked)).2 } := by
  have hlength : (validations picked found s.worker.clock.now).length = picked.length := by
    rw [length_validations, located_eq_self hfound]
  generalize happlied : validations picked found s.worker.clock.now = applied at *
  have hstamped : Stage.stamped picked found s.worker.clock.now = .applying picked applied := by
    rw [Stage.stamped, happlied]
    cases applied with
    | nil => exact absurd (List.length_eq_zero_iff.mp hlength.symm) hsome
    | cons => rfl
  let asked : Scheduler Tables κ :=
    { s with sources := s.sources.set place (source.ask (pickedUids picked)).2 }
  have hthere : asked.sources[place]? = some (source.ask (pickedUids picked)).2 :=
    List.getElem?_set_self (List.getElem?_eq_some_iff.mp hsource).1
  have hask : s.stepBatch Tables.backend ⟨place, .resolving picked⟩ =
      (asked, ⟨place, .stamping picked found⟩) := by
    refine stepBatch_eq hsource ?_
    simp only [Stage.step, Source.ask, hreply]
    rfl
  have hstamp : asked.stepBatch Tables.backend ⟨place, .stamping picked found⟩ =
      (asked, ⟨place, .applying picked applied⟩) := by
    refine stepBatch_eq_of_source hthere ?_
    rw [Stage.step, ← hstamped]
  have hwritten := ends_applying hthere picked happly
  rw [hlength] at hwritten
  exact .cons (by simp [Stage.stepsLeft]) hask (.cons (by simp [Stage.stepsLeft]) hstamp hwritten)

/-- A whole call goes from the first stage to the end. -/
theorem Ends.processBatch (hinstalled : s.installed = some place)
    (hends : Ends s ⟨place, .first s.batchMax⟩ asks ending after) :
    s.processBatch Tables.backend = (ending, after) ∧ s.selected = asks.getD [] := by
  have hbegin : s.beginBatch = .ok ⟨place, .first s.batchMax⟩ := by
    simp only [beginBatch, hinstalled]
  constructor
  · rw [Scheduler.processBatch, hbegin, finishBatch, hends.steps _ (Nat.le_refl _)]
    rfl
  · simp only [selected, hbegin, hends.asks _ (Nat.le_refl _)]

end Scheduler

end ShopValidation
