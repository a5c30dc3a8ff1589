import Mathlib.Data.List.Perm.Basic
import Mathlib.Data.List.Nodup
import ShopValidation.Proofs.Scheduler.Looping

/-!
# The order in which tasks are picked

A batch asks the store for the front of one queue after another, from the reason with the highest
priority to the one with the lowest, each time with the room that is left. Together the queues are one
list, the agenda: all tasks by priority of their reason, then by age, then by id. What a batch picks
is the front of the agenda, and once it is written off the rest of the agenda is left.
-/

namespace ShopValidation

/-- The place of a reason in the order of priority. -/
def Reason.rank (reason : Reason) : Nat := byPriority.idxOf reason

/-- The order of priority is that of the places. -/
theorem Reason.byPriority_increasing : byPriority.Pairwise (·.rank < ·.rank) := by decide

namespace Task

variable {a b c : Task}

/-- Whether one task comes before another: for a reason of higher priority, and for the same reason as
in its queue. -/
def comesBefore (a b : Task) : Bool :=
  a.reason.rank < b.reason.rank || (a.reason.rank = b.reason.rank && a.precedes b)

/-- The order compares places, times and ids, in turn. -/
theorem comesBefore_iff :
    a.comesBefore b = true ↔ a.reason.rank < b.reason.rank ∨ a.reason.rank = b.reason.rank ∧
      (a.enqueuedAt.second < b.enqueuedAt.second ∨ a.enqueuedAt.second = b.enqueuedAt.second ∧
        (a.enqueuedAt.nano < b.enqueuedAt.nano ∨ a.enqueuedAt.nano = b.enqueuedAt.nano ∧
          a.id.value ≤ b.id.value)) := by
  have hsame : a.enqueuedAt = b.enqueuedAt ↔
      a.enqueuedAt.second = b.enqueuedAt.second ∧ a.enqueuedAt.nano = b.enqueuedAt.nano := by
    rcases a.enqueuedAt with ⟨second, nano⟩
    rcases b.enqueuedAt with ⟨second', nano'⟩
    simp
  simp only [comesBefore, precedes, Instant.isBefore, Bool.or_eq_true, Bool.and_eq_true,
    decide_eq_true_eq, hsame]
  omega

theorem comesBefore_trans (hab : a.comesBefore b = true) (hbc : b.comesBefore c = true) :
    a.comesBefore c = true := by
  rw [comesBefore_iff] at *
  omega

theorem comesBefore_total (a b : Task) : (a.comesBefore b || b.comesBefore a) = true := by
  rw [Bool.or_eq_true, comesBefore_iff, comesBefore_iff]
  omega

/-- Tasks that come before each other share their id. -/
theorem id_eq_of_comesBefore (hab : a.comesBefore b = true) (hba : b.comesBefore a = true) :
    a.id = b.id := by
  rw [comesBefore_iff] at hab hba
  have hvalue : a.id.value = b.id.value := by omega
  exact congrArg TaskId.mk hvalue

/-- For one reason the order is that of its queue. -/
theorem comesBefore_eq_precedes (hreason : a.reason = b.reason) :
    a.comesBefore b = a.precedes b := by
  simp [comesBefore, hreason]

/-- A reason of higher priority comes first. -/
theorem comesBefore_of_rank_lt (hrank : a.reason.rank < b.reason.rank) :
    a.comesBefore b = true := by
  simp [comesBefore, hrank]

end Task

/-- Sorting rows by a key with several values, and putting the classes after one another, loses no
row. -/
theorem flatMap_filter_perm {α β : Type} [DecidableEq β] (key : α → β) (rows : List α) {keys : List β}
    (hnodup : keys.Nodup) :
    (keys.flatMap fun k => rows.filter (key · = k)).Perm (rows.filter (key · ∈ keys)) := by
  induction keys with
  | nil => simp
  | cons k keys ih =>
    obtain ⟨hnew, hnodup⟩ := List.nodup_cons.mp hnodup
    have hclass : (rows.filter (key · ∈ k :: keys)).filter (key · = k) = rows.filter (key · = k) := by
      rw [List.filter_filter]
      refine List.filter_congr fun row _ => ?_
      by_cases hrow : key row = k <;> simp [hrow]
    have hothers :
        (rows.filter (key · ∈ k :: keys)).filter (fun row => !decide (key row = k)) =
          rows.filter (key · ∈ keys) := by
      rw [List.filter_filter]
      refine List.filter_congr fun row _ => ?_
      by_cases hrow : key row = k
      · simp [hrow, hnew]
      · simp [hrow]
    have hboth := List.filter_append_perm (key · = k) (rows.filter (key · ∈ k :: keys))
    rw [hclass, hothers] at hboth
    exact ((ih hnodup).append_left _).trans hboth

namespace Tables

variable {tables after : Tables} {tasks : List Task}

/-- The whole queue in the order in which its tasks are picked. -/
def agenda (tables : Tables) : List Task := tables.tasks.mergeSort Task.comesBefore

/-- The agenda holds every task once. -/
theorem agenda_perm (tables : Tables) : tables.agenda.Perm tables.tasks := List.mergeSort_perm _ _

/-- Sorted tasks are in order. -/
theorem pairwise_mergeSort_comesBefore (tasks : List Task) :
    (tasks.mergeSort Task.comesBefore).Pairwise fun a b => a.comesBefore b = true :=
  @List.pairwise_mergeSort _ Task.comesBefore (fun _ _ _ => Task.comesBefore_trans)
    Task.comesBefore_total tasks

/-- The agenda is in order. -/
theorem agenda_pairwise (tables : Tables) :
    tables.agenda.Pairwise fun a b => a.comesBefore b = true :=
  pairwise_mergeSort_comesBefore tables.tasks

/-- There is one order for the tasks of the queue. -/
theorem Sound.eq_agenda (h : tables.Sound) (hperm : tasks.Perm tables.tasks)
    (hsorted : tasks.Pairwise fun a b => a.comesBefore b = true) : tasks = tables.agenda := by
  refine List.Perm.eq_of_pairwise (fun a b ha hb hab hba => ?_) hsorted tables.agenda_pairwise
    (hperm.trans tables.agenda_perm.symm)
  exact h.task_unique (hperm.mem_iff.mp ha) (tables.agenda_perm.mem_iff.mp hb)
    (Task.id_eq_of_comesBefore hab hba)

/-- The queue of a reason is in order. -/
theorem queue_pairwise (tables : Tables) (reason : Reason) :
    (tables.queue reason).Pairwise fun a b => a.comesBefore b = true := by
  have hsorted : tables.queue reason =
      (tables.tasks.filter (·.reason = reason)).mergeSort Task.comesBefore := by
    have hsame := List.map_mergeSort (f := id) (r := Task.precedes) (s := Task.comesBefore)
      (l := tables.tasks.filter (·.reason = reason)) fun a ha b hb => by
        have hreason : a.reason = b.reason := by
          rw [of_decide_eq_true (List.mem_filter.mp ha).2,
            of_decide_eq_true (List.mem_filter.mp hb).2]
        exact (Task.comesBefore_eq_precedes hreason).symm
    rwa [List.map_id, List.map_id] at hsame
  rw [hsorted]
  exact pairwise_mergeSort_comesBefore _

/-- The queues of all reasons, one after another, are the agenda. -/
theorem Sound.flatMap_queue (h : tables.Sound) :
    Reason.byPriority.flatMap tables.queue = tables.agenda := by
  refine h.eq_agenda ?_ ?_
  · have hall := flatMap_filter_perm (fun task : Task => task.reason) tables.tasks Reason.nodup_byPriority
    rw [List.filter_eq_self.mpr fun task _ => decide_eq_true (Reason.mem_byPriority _)] at hall
    exact (List.Perm.flatMap_left _ fun reason _ => List.mergeSort_perm _ _).trans hall
  · refine List.pairwise_flatMap.mpr ⟨fun reason _ => tables.queue_pairwise reason, ?_⟩
    refine Reason.byPriority_increasing.imp fun hrank a ha b hb => ?_
    rw [← (mem_queue.mp ha).2, ← (mem_queue.mp hb).2] at hrank
    exact Task.comesBefore_of_rank_lt hrank

/-- No task stands on the agenda twice. -/
theorem Sound.agendaIds_nodup (h : tables.Sound) : (tables.agenda.map Task.id).Nodup :=
  (tables.agenda_perm.map Task.id).nodup_iff.mpr h.taskIds_nodup

/-- Leaving out the tasks at the front of the agenda leaves the rest of it. -/
theorem Sound.filter_agenda (h : tables.Sound) (n : Nat) :
    tables.agenda.filter (·.id ∉ (tables.agenda.take n).map Task.id) = tables.agenda.drop n := by
  have hnodup := h.agendaIds_nodup
  rw [← List.take_append_drop n tables.agenda, List.map_append] at hnodup
  have hapart := (List.nodup_append.mp hnodup).2.2
  have hfront : (tables.agenda.take n).filter (·.id ∉ (tables.agenda.take n).map Task.id) = [] := by
    refine List.filter_eq_nil_iff.mpr fun task hmem hnot => ?_
    exact of_decide_eq_true hnot (List.mem_map_of_mem hmem)
  have hrest : (tables.agenda.drop n).filter (·.id ∉ (tables.agenda.take n).map Task.id) =
      tables.agenda.drop n := by
    refine List.filter_eq_self.mpr fun task hmem => decide_eq_true fun hfront => ?_
    exact hapart task.id hfront task.id (List.mem_map_of_mem hmem) rfl
  conv_lhs => arg 2; rw [← List.take_append_drop n tables.agenda]
  rw [List.filter_append, hfront, hrest, List.nil_append]

/-- Where the tasks at the front of the agenda are written off, the rest of it is left. -/
theorem Sound.agenda_of_filter (h : tables.Sound) (hafter : after.Sound) (n : Nat)
    (htasks : after.tasks = tables.tasks.filter (·.id ∉ (tables.agenda.take n).map Task.id)) :
    after.agenda = tables.agenda.drop n := by
  symm
  refine hafter.eq_agenda ?_ (tables.agenda_pairwise.sublist (List.drop_sublist n _))
  rw [htasks, ← h.filter_agenda n]
  exact tables.agenda_perm.filter _

/-- Tasks, each beside the row of its shop. -/
def beside (tables : Tables) (tasks : List Task) : List QueuedTask :=
  tasks.filterMap fun task => (tables.shop? task.shopId).map (QueuedTask.mk task)

/-- Rows that are beside the rows of their shops are so. -/
theorem beside_map_task {rows : List QueuedTask}
    (hshops : ∀ row ∈ rows, tables.shop? row.task.shopId = some row.shop) :
    tables.beside (rows.map QueuedTask.task) = rows := by
  induction rows with
  | nil => rfl
  | cons row rows ih =>
    obtain ⟨hshop, hshops⟩ := List.forall_mem_cons.mp hshops
    simp only [beside, List.map_cons] at ih ⊢
    rw [List.filterMap_cons, hshop, Option.map_some, ih hshops]

/-- Every picked task is one of those asked for, beside the row of its shop. -/
theorem mem_beside {queued : QueuedTask} (h : queued ∈ tables.beside tasks) :
    queued.task ∈ tasks ∧ tables.shop? queued.task.shopId = some queued.shop := by
  obtain ⟨task, htask, hqueued⟩ := List.mem_filterMap.mp h
  obtain ⟨shop, hshop, rfl⟩ := Option.map_eq_some_iff.mp hqueued
  exact ⟨htask, hshop⟩

/-- No task of the queue is without its shop. -/
theorem Sound.map_task_beside (h : tables.Sound) (hqueued : tasks ⊆ tables.tasks) :
    (tables.beside tasks).map QueuedTask.task = tasks := by
  induction tasks with
  | nil => rfl
  | cons task tasks ih =>
    obtain ⟨htask, hrest⟩ := List.cons_subset.mp hqueued
    have hshop := h.task_hasShop task htask
    rw [← isSome_shop?] at hshop
    obtain ⟨shop, hshop⟩ := Option.isSome_iff_exists.mp hshop
    have ih := ih hrest
    simp only [beside] at ih ⊢
    rw [List.filterMap_cons, hshop, Option.map_some, List.map_cons, ih]

/-- No task is without its shop, so that as many are picked as are asked for. -/
theorem Sound.length_beside (h : tables.Sound) (hqueued : tasks ⊆ tables.tasks) :
    (tables.beside tasks).length = tasks.length := by
  rw [← List.length_map (f := QueuedTask.task), h.map_task_beside hqueued]

/-- The front of two lists of tasks is the front of the first and, as far as there is room, of the
second. -/
theorem Sound.beside_take_append (h : tables.Sound) (hqueued : tasks ⊆ tables.tasks)
    (rest : List Task) (room : Nat) :
    tables.beside ((tasks ++ rest).take room) =
      tables.beside (tasks.take room) ++
        tables.beside (rest.take (room - (tables.beside (tasks.take room)).length)) := by
  have hfront : tasks.take room ⊆ tables.tasks := List.Subset.trans (List.take_subset room tasks) hqueued
  have hroom : room - min room tasks.length = room - tasks.length := by omega
  rw [h.length_beside hfront, List.length_take, hroom, List.take_append]
  exact List.filterMap_append

/-- The store gives the front of a queue, each task beside the row of its shop. -/
theorem Sound.select_eq (h : tables.Sound) (reason : Reason) (limit : Nat) :
    tables.select reason limit = .ok (tables.beside ((tables.queue reason).take limit)) := by
  obtain ⟨rows, hrows⟩ := h.exists_select reason limit
  obtain ⟨htasks, hshops⟩ := select_eq_ok hrows
  rw [hrows, ← htasks, beside_map_task hshops]

end Tables

end ShopValidation
