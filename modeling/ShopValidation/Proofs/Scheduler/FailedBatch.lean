import ShopValidation.Proofs.Scheduler.Start

/-!
# A batch that fails leaves the store alone

A batch changes its store with its last step only, where that succeeds. So a batch that fails has
changed nothing, on every kind of store where operations that are not answered change nothing and
selections never do.
-/

namespace ShopValidation

/-- What a view shows of a store is not changed by selections. -/
def Backend.SelectsOnly {σ τ : Type} (backend : Backend σ) (view : σ → τ) : Prop :=
  ∀ (reason : Reason) (limit : Nat) (store after : σ) (rows : List QueuedTask),
    backend.perform (.select reason limit) store = (.ok rows, after) → view after = view store

namespace PlannedStore

/-- Selections leave the tables behind planned failures alone. -/
theorem tables_of_answer_select {reason : Reason} {limit : Nat} {store after : PlannedStore}
    {rows : List QueuedTask} (h : answer (.select reason limit) store = (.ok rows, after)) :
    after.tables = store.tables := by
  simp only [answer, Tables.apply] at h
  cases hselect : store.tables.select reason limit <;> rw [hselect] at h <;> cases h
  rfl

/-- So they do where failures are planned for them. -/
theorem selectsOnly_backend : backend.SelectsOnly PlannedStore.tables := by
  intro reason limit store after rows h
  simp only [backend, perform] at h
  split at h
  · exact tables_of_answer_select h
  · cases h
  · cases h
  · rename_i hnext
    exact (tables_of_answer_select h).trans (tables_of_next? hnext)

end PlannedStore

variable {σ τ κ : Type} {backend : Backend σ} {view : σ → τ}

/-- A step of a batch leaves the store alone, unless it is the write with which the batch succeeds. -/
theorem Stage.view_step (hatomic : backend.Atomic view) (hselects : backend.SelectsOnly view)
    (batchMax : Nat) (now : Instant) (stage : Stage) (store : σ) (source : Source) :
    (∃ outcome, (stage.step backend batchMax now store source).1 = .finished (.ok outcome)) ∨
      view (stage.step backend batchMax now store source).2.1 = view store := by
  cases stage with
  | selecting picked reasons =>
    cases reasons with
    | nil => exact .inr rfl
    | cons reason reasons =>
      right
      rw [step]
      split
      · rfl
      · split
        · rename_i rows after hselect
          exact hselects _ _ _ _ _ hselect
        · rename_i failure after hselect
          exact hatomic.failed _ _ _ _ hselect
  | resolving picked => exact .inr rfl
  | stamping picked found => exact .inr rfl
  | applying picked applied =>
    rw [step]
    split
    · exact .inl ⟨_, rfl⟩
    · rename_i failure after hwrite
      exact .inr (hatomic.failed _ _ _ _ hwrite)
  | finished ending => exact .inr rfl

namespace Scheduler

variable {s s' : Scheduler σ κ} {batch : Batch} {source : Source}
  {ending : Ending ValidationError Outcome} {failure : Failure ValidationError}

/-- A batch that has ended with its source in place stays so. -/
theorem stage_stepsBatch_of_finished (n : Nat) (hsource : s.sources[batch.source]? = some source)
    (hstage : batch.stage = .finished ending) :
    (s.stepsBatch backend (fun _ store => store) n batch).2.stage = .finished ending := by
  induction n generalizing s batch source with
  | zero => exact hstage
  | succ n ih =>
    have hlt := (List.getElem?_eq_some_iff.mp hsource).1
    simp only [stepsBatch, stepBatch, hsource, hstage]
    exact ih (List.getElem?_set_self hlt) rfl

/-- Steps of a batch leave the store alone, unless the batch succeeds. -/
theorem view_stepsBatch (hatomic : backend.Atomic view) (hselects : backend.SelectsOnly view) (n : Nat)
    (s : Scheduler σ κ) (batch : Batch) :
    (∃ outcome, (s.stepsBatch backend (fun _ store => store) n batch).2.stage =
      .finished (.ok outcome)) ∨
    view (s.stepsBatch backend (fun _ store => store) n batch).1.store = view s.store := by
  induction n generalizing s batch with
  | zero => exact .inr rfl
  | succ n ih =>
    cases hsource : s.sources[batch.source]? with
    | none =>
      simp only [stepsBatch, stepBatch, hsource]
      exact ih s _
    | some source =>
      have hlt := (List.getElem?_eq_some_iff.mp hsource).1
      simp only [stepsBatch, stepBatch, hsource]
      rcases Stage.view_step hatomic hselects s.batchMax s.worker.clock.now batch.stage s.store source
        with ⟨outcome, hdone⟩ | hsame
      · exact .inl ⟨outcome, stage_stepsBatch_of_finished n (List.getElem?_set_self hlt) hdone⟩
      · rw [← hsame]
        exact ih _ _

/-- A whole batch that fails leaves the store alone. -/
theorem view_processBatch_failed (hatomic : backend.Atomic view) (hselects : backend.SelectsOnly view)
    (h : s.processBatch backend = (.error failure, s')) : view s'.store = view s.store := by
  unfold processBatch at h
  cases hbegin : s.beginBatch with
  | error error =>
    rw [hbegin] at h
    cases h
    rfl
  | ok batch =>
    rw [hbegin, finishBatch] at h
    obtain ⟨hending, rfl⟩ := Prod.mk.inj h
    rcases view_stepsBatch hatomic hselects batch.stage.stepsLeft s batch with ⟨outcome, hdone⟩ | hsame
    · rw [Batch.ending, hdone] at hending
      cases hending
    · exact hsame

end Scheduler

end ShopValidation
