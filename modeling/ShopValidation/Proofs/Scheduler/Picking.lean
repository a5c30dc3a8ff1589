import ShopValidation.Proofs.Scheduler.Draining

/-!
# What a batch picks

A batch that nobody interrupts picks the front of the agenda, as much of it as fits, each task beside
the row of its shop. No stage of the picking has more in hand than fits, and no task is picked while
one with a reason of higher priority is left behind.

A batch for which no memory can be set aside crashes before it picks anything.
-/

namespace ShopValidation

namespace Tables

variable {tables : Tables} {low high : Task} {n : Nat}

/-- A task with a reason of higher priority than one at the front of the agenda is at the front too. -/
theorem mem_take_agenda_of_rank_lt (hlow : low ∈ tables.agenda.take n) (hhigh : high ∈ tables.tasks)
    (hrank : high.reason.rank < low.reason.rank) : high ∈ tables.agenda.take n := by
  have hsorted := tables.agenda_pairwise
  have hmem := tables.agenda_perm.mem_iff.mpr hhigh
  rw [← List.take_append_drop n tables.agenda] at hsorted hmem
  rcases List.mem_append.mp hmem with hfront | hrest
  · exact hfront
  · have hbefore := (List.pairwise_append.mp hsorted).2.2 low hlow high hrest
    rw [Task.comesBefore_iff] at hbefore
    omega

end Tables

namespace Scheduler

variable {κ : Type} {s : Scheduler Tables κ} {place : Nat} {source : Source}

/-- A batch that takes steps with nothing in between. -/
def steps (s : Scheduler Tables κ) (n : Nat) (batch : Batch) : Scheduler Tables κ × Batch :=
  s.stepsBatch Tables.backend (fun _ tables => tables) n batch

/-- A batch comes to a stage from picking stages only, and has never picked more than fits. -/
def PicksUntil (s : Scheduler Tables κ) (place : Nat) (last : Stage) (stage : Stage) : Prop :=
  ∃ n, s.steps n ⟨place, stage⟩ = (s, ⟨place, last⟩) ∧
    ∀ m < n, ∃ picked reasons, s.steps m ⟨place, stage⟩ = (s, ⟨place, .selecting picked reasons⟩) ∧
      picked.length ≤ s.batchMax

/-- One more picking stage comes before. -/
theorem PicksUntil.cons {last next : Stage} {picked : List QueuedTask} {reasons : List Reason}
    (hplaced : s.sources[place]? = some source) (hroom : picked.length ≤ s.batchMax)
    (hstep : (Stage.selecting picked reasons).step Tables.backend s.batchMax s.worker.clock.now s.store
      source = (next, s.store, source))
    (h : s.PicksUntil place last next) : s.PicksUntil place last (.selecting picked reasons) := by
  obtain ⟨n, hlast, hbefore⟩ := h
  have hfirst (m : Nat) : s.steps (m + 1) ⟨place, .selecting picked reasons⟩ =
      s.steps m ⟨place, next⟩ := by
    have hone : s.stepBatch Tables.backend ⟨place, .selecting picked reasons⟩ = (s, ⟨place, next⟩) :=
      stepBatch_eq_of_source hplaced hstep
    rw [steps, stepsBatch, hone]
    rfl
  refine ⟨n + 1, (hfirst n).trans hlast, fun m hm => ?_⟩
  cases m with
  | zero => exact ⟨picked, reasons, rfl, hroom⟩
  | succ m =>
    obtain ⟨before, rest, hsame, hwithin⟩ := hbefore m (Nat.lt_of_succ_lt_succ hm)
    exact ⟨before, rest, (hfirst m).trans hsame, hwithin⟩

/-- A batch that fits into memory picks the front of the agenda. -/
theorem picksUntil_front (hsound : s.store.Sound) (hplaced : s.sources[place]? = some source)
    (hfits : s.batchMax * pickedTaskBytes ≤ largestAllocation) :
    s.PicksUntil place (.picked s.front) (.first s.batchMax) := by
  rw [Stage.first, if_pos hfits]
  refine selecting_induct (motive := s.PicksUntil place (.picked s.front)) source hsound
    (fun picked reasons next hroom hstep hnext => hnext.cons hplaced hroom hstep) (Nat.zero_le _) ?_
  rw [hsound.flatMap_queue]
  exact ⟨0, rfl, fun m hm => absurd hm (Nat.not_lt_zero m)⟩

/-- A batch that does not fit into memory has crashed, and stays so. -/
theorem steps_of_overfull (hplaced : s.sources[place]? = some source)
    (hover : largestAllocation < s.batchMax * pickedTaskBytes) (n : Nat) :
    s.steps n ⟨place, .first s.batchMax⟩ = (s, ⟨place, .finished (.error .crashed)⟩) := by
  have hcrashed : Stage.first s.batchMax = .finished (.error .crashed) :=
    if_neg (Nat.not_le_of_lt hover)
  have hends : Ends s ⟨place, .first s.batchMax⟩ none (.error .crashed) s :=
    ends_finished hplaced hcrashed
  refine hends.steps n ?_
  rw [hcrashed]
  exact Nat.zero_le n

/-- Where batches fit into memory, a batch picks the first tasks of the whole queue in the order of
priority, age and id, as many as fit or are there, each once and beside the row of its shop. It never
has more in hand than fits, does not fail, and leaves no task behind whose reason has a higher priority
than that of one it picks. Where batches do not fit, it crashes before it picks anything. -/
theorem picks_front (htables : s.store.Reachable) (hplaced : s.sources[place]? = some source) :
    (s.batchMax * pickedTaskBytes ≤ largestAllocation →
      ∃ n rows, s.steps n ⟨place, .first s.batchMax⟩ = (s, ⟨place, .picked rows⟩) ∧
        (∀ m < n, ∃ picked reasons,
          s.steps m ⟨place, .first s.batchMax⟩ = (s, ⟨place, .selecting picked reasons⟩) ∧
            picked.length ≤ s.batchMax) ∧
        rows.map QueuedTask.task =
          (s.store.tasks.mergeSort Task.comesBefore).take (min s.batchMax s.store.tasks.length) ∧
        rows.length = min s.batchMax s.store.tasks.length ∧
        (rows.map (·.task.id)).Nodup ∧
        (∀ row ∈ rows, row.shop ∈ s.store.shops ∧ row.shop.id = row.task.shopId) ∧
        ∀ row ∈ rows, ∀ task ∈ s.store.tasks, task.reason.rank < row.task.reason.rank →
          task ∈ rows.map QueuedTask.task) ∧
    (largestAllocation < s.batchMax * pickedTaskBytes → ∀ n,
      s.steps n ⟨place, .first s.batchMax⟩ = (s, ⟨place, .finished (.error .crashed)⟩)) := by
  have hsound := htables.sound
  refine ⟨fun hfits => ?_, steps_of_overfull hplaced⟩
  obtain ⟨n, hlast, hbefore⟩ := picksUntil_front hsound hplaced hfits
  have hwaiting : s.store.agenda.take s.batchMax ⊆ s.store.tasks :=
    List.Subset.trans (List.take_subset _ _) s.store.agenda_perm.subset
  have hrows : s.front.map QueuedTask.task = s.store.agenda.take s.batchMax :=
    hsound.map_task_beside hwaiting
  have hlength : s.front.length = min s.batchMax s.store.tasks.length := by
    rw [← s.store.agenda_perm.length_eq, ← List.length_take, ← hrows, List.length_map]
  refine ⟨n, s.front, hlast, hbefore, ?_, hlength, ?_, fun row hrow => ?_,
    fun row hrow task htask hrank => ?_⟩
  · rw [hrows, ← s.store.agenda_perm.length_eq]
    exact List.take_eq_take_min
  · have hids : s.front.map (·.task.id) = (s.store.agenda.take s.batchMax).map Task.id := by
      rw [← hrows, List.map_map]
      rfl
    rw [hids]
    exact hsound.agendaIds_nodup.sublist ((List.take_sublist _ _).map _)
  · exact Tables.mem_of_shop? (Tables.mem_beside hrow).2
  · rw [hrows]
    have hpicked : row.task ∈ s.store.agenda.take s.batchMax := hrows ▸ List.mem_map_of_mem hrow
    exact Tables.mem_take_agenda_of_rank_lt hpicked htask hrank

theorem picks_front_threeTasks :
    ∃ n rows, (served 2).steps n ⟨0, .first 2⟩ = (served 2, ⟨0, .picked rows⟩) ∧
      rows.map (fun row => (row.task.id.value, row.shop.id.value)) = [(3, 2), (1, 1)] := by
  have hplaced : (served 2).sources[0]? = some Service.everywhere.source := rfl
  obtain ⟨n, rows, hlast, -, hrows, -, -, hshops, -⟩ :=
    (picks_front reachable_threeTasks hplaced).1 (by decide)
  have hsorted : ((threeTasks.tasks.mergeSort Task.comesBefore).take 2).map
      (fun task => (task.id.value, task.shopId.value)) = [(3, 2), (1, 1)] := by cbv
  have hids : rows.map (fun row => (row.task.id.value, row.shop.id.value)) = [(3, 2), (1, 1)] := by
    rw [← hsorted]
    have hpairs := congrArg (List.map fun task => (task.id.value, task.shopId.value)) hrows
    rw [List.map_map] at hpairs
    refine Eq.trans (List.map_congr_left fun row hrow => ?_) hpairs
    simp [(hshops row hrow).2]
  exact ⟨n, rows, hlast, hids⟩

theorem not_picked :
    ¬∀ (s : Scheduler Tables Unit) (place : Nat) (source : Source), s.store.Reachable →
      1 ≤ s.batchMax → s.sources[place]? = some source →
      ∃ n rows, s.steps n ⟨place, .first s.batchMax⟩ = (s, ⟨place, .picked rows⟩) := by
  intro h
  have hover : largestAllocation < (served 18446744073709551615).batchMax * pickedTaskBytes := by
    decide
  have hplaced : (served 18446744073709551615).sources[0]? = some Service.everywhere.source := rfl
  obtain ⟨n, rows, hpicked⟩ :=
    h (served 18446744073709551615) 0 _ reachable_threeTasks (by decide) hplaced
  have hcrashed := steps_of_overfull hplaced hover n
  have hstage := congrArg (fun result => result.2.stage) (hpicked.symm.trans hcrashed)
  cases rows <;> cases hstage

end Scheduler

end ShopValidation
