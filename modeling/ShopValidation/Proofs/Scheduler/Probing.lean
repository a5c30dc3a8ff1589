import ShopValidation.Database.Server
import ShopValidation.Proofs.Scheduler.Picking

/-!
# Whether there is work

Before it sleeps, the worker asks whether there is anything in the queue. It is told so exactly when a
batch would pick something, so that it neither goes round for tasks that no batch picks nor sleeps
while there are tasks that one would pick.

The tables in memory have every task beside its shop, and a batch goes through all reasons. A database
may hold tasks with codes that this library does not know. These are passed over by both, by the
question and by the selections.
-/

namespace ShopValidation

namespace Contents

variable {contents : Contents}

/-- The foreign key of the queue: every task is for a shop that is there. -/
def ForeignKey (contents : Contents) : Prop :=
  ∀ task ∈ contents.tasks, ∃ shop ∈ contents.shops, shop.id = task.shopId

/-- A selection finds nothing only where no task has its code, since none is lost beside its shop. -/
theorem ForeignKey.selectTasks_ne_nil_iff (hkey : contents.ForeignKey) (code : Int) :
    contents.selectTasks code ≠ [] ↔ ∃ task ∈ contents.tasks, task.reason = code := by
  constructor
  · intro hsome
    obtain ⟨pair, hpair⟩ := List.exists_mem_of_ne_nil _ hsome
    obtain ⟨task, htask, -⟩ := List.mem_flatMap.mp hpair
    obtain ⟨hqueued, hcode⟩ := List.mem_filter.mp (List.mem_mergeSort.mp htask)
    exact ⟨task, hqueued, of_decide_eq_true hcode⟩
  · rintro ⟨task, hqueued, hcode⟩
    obtain ⟨shop, hshop, hid⟩ := hkey task hqueued
    have htask : task ∈ contents.tasks.filter (·.reason = code) :=
      List.mem_filter.mpr ⟨hqueued, decide_eq_true hcode⟩
    have hbeside : shop ∈ contents.shops.filter (·.id = task.shopId) :=
      List.mem_filter.mpr ⟨hshop, decide_eq_true hid⟩
    exact List.ne_nil_of_mem (List.mem_flatMap.mpr
      ⟨task, List.mem_mergeSort.mpr htask, List.mem_map_of_mem hbeside⟩)

/-- The question counts the tasks that some selection finds. -/
theorem ForeignKey.any_selectable_iff (hkey : contents.ForeignKey) :
    (contents.tasks.any fun task => Statement.selectableCodes.contains task.reason) = true ↔
      ∃ reason ∈ Reason.byPriority, contents.selectTasks reason.code ≠ [] := by
  simp only [List.any_eq_true, List.contains_iff_mem, Statement.selectableCodes, List.mem_map,
    hkey.selectTasks_ne_nil_iff]
  constructor
  · rintro ⟨task, hqueued, reason, -, hcode⟩
    exact ⟨reason, reason.mem_byPriority, task, hqueued, hcode.symm⟩
  · rintro ⟨reason, -, task, hqueued, hcode⟩
    exact ⟨task, hqueued, reason, reason.mem_all, hcode.symm⟩

end Contents

namespace Server

variable {server : Server}

/-- A statement that is served where no transaction is spoiled is executed. -/
theorem serve_run (hready : server.spoiled = false) (statement : Statement) :
    server.serve (.run statement) = server.execute statement := by
  rw [serve, hready]
  rfl

/-- The question whether there is work is answered, and changes nothing. -/
theorem perform_existsAny (hready : server.spoiled = false) :
    backend.perform .existsAny server =
      (.ok (server.contents.tasks.any fun task => Statement.selectableCodes.contains task.reason),
        server) := by
  simp only [backend, Program.ofOperation, Program.query, Program.run, serve_run hready]
  rfl

/-- A selection with room for a task finds one where there is any. -/
theorem serve_selectTasks_iff (hready : server.spoiled = false) (reason : Reason) {limit : Nat}
    (hlimit : 0 < limit) :
    (∃ row rows, server.serve (.run (.selectTasks reason limit)) = (found (row :: rows), server)) ↔
      server.contents.selectTasks reason.code ≠ [] := by
  have hroom : 0 < min limit Statement.largestLimit := Nat.lt_min.mpr ⟨hlimit, by decide⟩
  obtain ⟨room, hroom⟩ := Nat.exists_eq_succ_of_ne_zero (Nat.ne_of_gt hroom)
  rw [serve_run hready, execute, hroom]
  cases server.contents.selectTasks reason.code with
  | nil => simp [found]
  | cons pair pairs => simp [found]

end Server

namespace Scheduler

variable {κ : Type} {s : Scheduler Tables κ} {place : Nat} {source : Source}
  {rows others : List QueuedTask}

/-- A batch begins with picking these tasks. -/
def Selects (s : Scheduler Tables κ) (place : Nat) (rows : List QueuedTask) : Prop :=
  s.PicksUntil place (.picked rows) (.first s.batchMax)

/-- Whoever has picked is not picking any more. -/
theorem picked_ne_selecting (rows picked : List QueuedTask) (reasons : List Reason) :
    Stage.picked rows ≠ .selecting picked reasons := by
  cases rows <;> exact nofun

/-- The stage after the picking tells what was picked. -/
theorem picked_inj (h : Stage.picked rows = .picked others) : rows = others := by
  cases rows <;> cases others <;> cases h <;> rfl

/-- What was picked is known only after the last stage of the picking. -/
theorem le_of_picked {batch : Batch} {n m : Nat}
    (hpicked : s.steps n batch = (s, ⟨place, .picked rows⟩))
    (hbefore : ∀ k < m, ∃ picked reasons,
      s.steps k batch = (s, ⟨place, .selecting picked reasons⟩) ∧ picked.length ≤ s.batchMax) :
    m ≤ n := by
  refine Nat.le_of_not_lt fun hlt => ?_
  obtain ⟨picked, reasons, hstage, -⟩ := hbefore n hlt
  have hsame := congrArg (fun result => result.2.stage) (hpicked.symm.trans hstage)
  exact picked_ne_selecting _ _ _ hsame

/-- A batch begins with picking one list of tasks. -/
theorem Selects.eq (h : s.Selects place rows) (hother : s.Selects place others) : rows = others := by
  obtain ⟨n, hlast, hbefore⟩ := h
  obtain ⟨m, hlast', hbefore'⟩ := hother
  obtain rfl : n = m := Nat.le_antisymm (le_of_picked hlast' hbefore) (le_of_picked hlast hbefore')
  exact picked_inj (congrArg (fun result => result.2.stage) (hlast.symm.trans hlast'))

/-- A batch that does not fit into memory picks nothing, not even no tasks. -/
theorem not_selects_of_overfull (hplaced : s.sources[place]? = some source)
    (hover : largestAllocation < s.batchMax * pickedTaskBytes) : ¬s.Selects place rows := by
  rintro ⟨n, hpicked, -⟩
  have hcrashed := steps_of_overfull hplaced hover n
  have hstage := congrArg (fun result => result.2.stage) (hpicked.symm.trans hcrashed)
  cases rows <;> cases hstage

/-- The front of the agenda has something just where the queue does, if a batch has room at all. -/
theorem isEmpty_front (hsound : s.store.Sound) (hbatch : 1 ≤ s.batchMax) :
    s.front.isEmpty = s.store.tasks.isEmpty := by
  have hwaiting : s.store.agenda.take s.batchMax ⊆ s.store.tasks :=
    List.Subset.trans (List.take_subset _ _) s.store.agenda_perm.subset
  have hlength : s.front.length = min s.batchMax s.store.tasks.length := by
    rw [front, hsound.length_beside hwaiting, List.length_take, s.store.agenda_perm.length_eq]
  rw [Bool.eq_iff_iff, List.isEmpty_iff_length_eq_zero, List.isEmpty_iff_length_eq_zero, hlength]
  omega

/-- The tables in memory answer whether there is work by looking at the whole queue. -/
theorem hasWork_eq (s : Scheduler Tables κ) :
    s.hasWork Tables.backend = (.ok (!s.store.tasks.isEmpty), s) := rfl

/-- Where batches fit into memory, a batch picks something just where there is work. -/
theorem hasWork_of_fits (htables : s.store.Reachable) (hbatch : 1 ≤ s.batchMax)
    (hplaced : s.sources[place]? = some source)
    (hfits : s.batchMax * pickedTaskBytes ≤ largestAllocation) :
    (∃ rows, ∀ others, s.Selects place others ↔ others = rows) ∧
      ∃ busy, s.hasWork Tables.backend = (.ok busy, s) ∧
        (busy = true ↔ ∃ rows, s.Selects place rows ∧ rows ≠ []) := by
  have hpicks : s.Selects place s.front := picksUntil_front htables.sound hplaced hfits
  refine ⟨⟨s.front, fun others => ⟨fun h => h.eq hpicks, fun h => h ▸ hpicks⟩⟩, _, s.hasWork_eq, ?_⟩
  rw [← isEmpty_front htables.sound hbatch, Bool.not_eq_true', List.isEmpty_eq_false_iff]
  constructor
  · exact fun hsome => ⟨s.front, hpicks, hsome⟩
  · rintro ⟨rows, hselects, hsome⟩
    exact hselects.eq hpicks ▸ hsome

/-- Where batches fit into memory, a batch begins with picking one list of tasks, and there is work
just where the list is not empty. Where they do not fit, a batch picks nothing although there may be
work. A database with the foreign key says that there is work just where the selection of some reason
finds a row, however many rows it may find, and whichever codes are in the queue. -/
theorem hasWork_iff_selects :
    (∀ (s : Scheduler Tables κ) (place : Nat) (source : Source), s.store.Reachable →
      1 ≤ s.batchMax → s.sources[place]? = some source →
      (s.batchMax * pickedTaskBytes ≤ largestAllocation →
        (∃ rows, ∀ others, s.Selects place others ↔ others = rows) ∧
        ∃ busy, s.hasWork Tables.backend = (.ok busy, s) ∧
          (busy = true ↔ ∃ rows, s.Selects place rows ∧ rows ≠ [])) ∧
      (largestAllocation < s.batchMax * pickedTaskBytes →
        s.hasWork Tables.backend = (.ok (!s.store.tasks.isEmpty), s) ∧ ∀ rows, ¬s.Selects place rows)) ∧
    ∀ (server : Server) (limit : Nat), server.contents.ForeignKey → server.spoiled = false →
      0 < limit →
      ∃ busy, Server.backend.perform .existsAny server = (.ok busy, server) ∧
        (busy = true ↔ ∃ reason ∈ Reason.byPriority, ∃ row rows,
          server.serve (.run (.selectTasks reason limit)) = (Server.found (row :: rows), server)) := by
  constructor
  · intro s place source htables hbatch hplaced
    exact ⟨hasWork_of_fits htables hbatch hplaced,
      fun hover => ⟨s.hasWork_eq, fun _ => not_selects_of_overfull hplaced hover⟩⟩
  · intro server limit hkey hready hlimit
    refine ⟨_, Server.perform_existsAny hready, ?_⟩
    simp only [Server.serve_selectTasks_iff hready _ hlimit]
    exact hkey.any_selectable_iff

/-- A database with one shop, and for each of these codes a task for it. -/
def holding (codes : List Int) : Server where
  committed :=
    { shops := [⟨1, "1:1", .epoch, Service.firstRequest.source, none, none, none⟩]
      tasks := codes.zipIdx.map fun (code, i) => ⟨i + 1, 1, .epoch, Service.firstRequest.source, code⟩ }

theorem hasWork_iff_selects_holding :
    (∃ rows, (served 2).Selects 0 rows ∧ rows ≠ []) ∧
      (∃ reason ∈ Reason.byPriority, ∃ row rows, (holding [9, 3]).serve (.run (.selectTasks reason 5)) =
        (Server.found (row :: rows), holding [9, 3])) ∧
      ¬∃ reason ∈ Reason.byPriority, ∃ row rows, (holding [9]).serve (.run (.selectTasks reason 5)) =
        (Server.found (row :: rows), holding [9]) := by
  have hplaced : (served 2).sources[0]? = some Service.everywhere.source := rfl
  have hkey (codes : List Int) : (holding codes).contents.ForeignKey := by
    intro task htask
    obtain ⟨⟨code, i⟩, -, rfl⟩ := List.mem_map.mp htask
    exact ⟨_, List.mem_cons_self, rfl⟩
  obtain ⟨hmemory, hdatabase⟩ := hasWork_iff_selects (κ := Unit)
  obtain ⟨-, waiting, hwaiting, hselects⟩ :=
    (hmemory (served 2) 0 _ reachable_threeTasks (by decide) hplaced).1 (by decide)
  obtain ⟨busy, hbusy, hmixed⟩ := hdatabase _ 5 (hkey [9, 3]) rfl (by decide)
  obtain ⟨idle, hidle, hunknown⟩ := hdatabase _ 5 (hkey [9]) rfl (by decide)
  obtain rfl : waiting = true := by cases hwaiting; rfl
  obtain rfl : busy = true := by cases hbusy; rfl
  obtain rfl : idle = false := by cases hidle; rfl
  exact ⟨hselects.mp rfl, hmixed.mp rfl, fun h => Bool.noConfusion (hunknown.mpr h)⟩

theorem hasWork_not_selects :
    ¬∀ (s : Scheduler Tables Unit) (place : Nat) (source : Source), s.store.Reachable →
      1 ≤ s.batchMax → s.sources[place]? = some source →
      ((s.hasWork Tables.backend).1 = .ok true ↔ ∃ rows, s.Selects place rows ∧ rows ≠ []) := by
  intro h
  have hover : largestAllocation < (served 18446744073709551615).batchMax * pickedTaskBytes := by
    decide
  have hplaced : (served 18446744073709551615).sources[0]? = some Service.everywhere.source := rfl
  obtain ⟨rows, hselects, -⟩ :=
    (h (served 18446744073709551615) 0 _ reachable_threeTasks (by decide) hplaced).mp rfl
  exact not_selects_of_overfull hplaced hover hselects

end Scheduler

end ShopValidation
