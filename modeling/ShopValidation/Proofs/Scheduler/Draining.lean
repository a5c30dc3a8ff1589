import Mathlib
import ShopValidation.Proofs.Scheduler.Conservation
import ShopValidation.Proofs.Scheduler.Course
import ShopValidation.Proofs.Scheduler.Pending

/-!
# Draining the queue

Whole calls follow one another while nobody else uses the queue, and the source answers every
location. Each call takes the front of the agenda off, so that together they go through the queue in
the order of the agenda. When it is empty they go on to do nothing.

A batch for which no memory can be set aside crashes at its beginning, whatever is in the queue.
-/

namespace ShopValidation

/-- A table that has a position for everywhere answers every location. -/
theorem PositionTable.complete_source {table : PositionTable} {position : Coordinates}
    (heverywhere : table.everywhere = some position) : table.source.Complete := by
  intro n uids
  refine ⟨table.resolve uids, rfl, fun uid huid => ?_⟩
  have hsome : (table.position? uid).isSome = true := by
    rw [position?]
    split
    · rfl
    · rw [heverywhere]
      rfl
  obtain ⟨p, hp⟩ := Option.isSome_iff_exists.mp hsome
  exact ⟨⟨uid, p.lat, p.lon⟩, List.mem_filterMap.mpr ⟨uid, huid, by rw [hp]; rfl⟩, rfl⟩

/-- The questions that calls ask which selected these tasks. A call that selected none does not ask. -/
def questions (selections : List (List QueuedTask)) : List (List LocationUid) :=
  (selections.filter (!·.isEmpty)).map pickedUids

namespace Scheduler

variable {κ : Type} {s after : Scheduler Tables κ} {place : Nat} {source source' : Source}
  {clocks : List ManualClock}

/-- What a whole call did: the tasks that it selected, and how it ended. -/
structure Report where
  selected : List QueuedTask
  ending : Ending ValidationError Outcome

/-- The scheduler when its clock has moved. -/
def withClock (s : Scheduler Tables κ) (clock : ManualClock) : Scheduler Tables κ :=
  { s with worker := { s.worker with clock := clock } }

/-- Whole calls with nothing in between, each at a time of its own. -/
def drain : List ManualClock → Scheduler Tables κ → List Report × Scheduler Tables κ
  | [], s => ([], s)
  | clock :: clocks, s =>
    let (ending, after) := (s.withClock clock).processBatch Tables.backend
    let (reports, last) := drain clocks after
    (⟨(s.withClock clock).selected, ending⟩ :: reports, last)

/-- A scheduler with sound tables, batches that fit into memory, and a source in place that answers
every location. -/
structure Serving (s : Scheduler Tables κ) (place : Nat) (source : Source) : Prop where
  sound : s.store.Sound
  fits : s.batchMax * pickedTaskBytes ≤ largestAllocation
  installed : s.installed = some place
  placed : s.sources[place]? = some source
  complete : source.Complete

/-- A call has taken the front of the agenda off, and asked about it if there was any. -/
structure Called (s after : Scheduler Tables κ) (place : Nat) (source source' : Source) : Prop where
  processed : s.processBatch Tables.backend =
    (.ok ⟨s.selected.length, s.selected.length⟩, after)
  selected : s.selected.map QueuedTask.task = s.store.agenda.take s.batchMax
  agenda : after.store.agenda = s.store.agenda.drop s.batchMax
  asked : source'.asked = source.asked ++ questions [s.selected]
  batchMax : after.batchMax = s.batchMax
  serving : after.Serving place source'

/-- The front of the agenda, as much of it as fits into a batch, each task beside its shop. -/
def front (s : Scheduler Tables κ) : List QueuedTask :=
  s.store.beside (s.store.agenda.take s.batchMax)

/-- No task is lost where the shops are put beside the tasks. -/
theorem Serving.map_task_front (h : s.Serving place source) :
    s.front.map QueuedTask.task = s.store.agenda.take s.batchMax :=
  h.sound.map_task_beside (List.Subset.trans (List.take_subset _ _) s.store.agenda_perm.subset)

/-- A call whose batch fits into memory begins by picking the front of the agenda. -/
theorem processBatch_of_front (hsound : s.store.Sound)
    (hfits : s.batchMax * pickedTaskBytes ≤ largestAllocation) (hinstalled : s.installed = some place)
    (hplaced : s.sources[place]? = some source) {asks : Option (List QueuedTask)}
    {ending : Ending ValidationError Outcome}
    (hends : Ends s ⟨place, .picked s.front⟩ asks ending after) :
    s.processBatch Tables.backend = (ending, after) ∧ s.selected = asks.getD [] := by
  refine Ends.processBatch hinstalled ?_
  rw [Stage.first, if_pos hfits]
  refine ends_selecting hsound hplaced (Nat.zero_le _) ?_
  rw [hsound.flatMap_queue]
  exact hends

/-- So does a call of a scheduler that serves. -/
theorem Serving.processBatch (h : s.Serving place source) {asks : Option (List QueuedTask)}
    {ending : Ending ValidationError Outcome}
    (hends : Ends s ⟨place, .picked s.front⟩ asks ending after) :
    s.processBatch Tables.backend = (ending, after) ∧ s.selected = asks.getD [] :=
  processBatch_of_front h.sound h.fits h.installed h.placed hends

/-- A call with nothing to pick does nothing. -/
theorem Serving.called_of_nil (h : s.Serving place source) (hnone : s.front = []) :
    Called s s place source source := by
  have hends : Ends s ⟨place, .picked s.front⟩ none (.ok ⟨0, 0⟩) s := by
    rw [hnone]
    exact ends_finished h.placed rfl
  obtain ⟨hprocessed, hselected⟩ := h.processBatch hends
  have hagenda := h.map_task_front
  rw [hnone, List.map_nil] at hagenda
  constructor
  · rw [hprocessed, hselected]
    rfl
  · rw [hselected]
    exact hagenda
  · rw [← List.nil_append (s.store.agenda.drop _), hagenda, List.take_append_drop]
  · rw [hselected]
    exact (List.append_nil _).symm
  · rfl
  · exact h

/-- A call with something to pick asks about it and takes it off the queue. -/
theorem Serving.called_of_ne_nil (h : s.Serving place source) (hsome : s.front ≠ []) :
    ∃ after source', Called s after place source source' := by
  have hpick : Stage.picked s.front = .resolving s.front := by
    cases hfront : s.front with
    | nil => exact absurd hfront hsome
    | cons => rfl
  obtain ⟨found, hreply, hfound⟩ := h.complete source.asked.length (pickedUids s.front)
  obtain ⟨tables, happly, hsound, htasks⟩ :=
    h.sound.exists_applyBatch (s.store.agenda.take s.batchMax) found s.worker.clock.now
  have hends := ends_resolving h.placed hsome hreply hfound happly
  rw [← hpick] at hends
  obtain ⟨hprocessed, hselected⟩ := h.processBatch hends
  rw [Option.getD_some] at hselected
  rw [← hselected] at hprocessed
  refine ⟨_, (source.ask (pickedUids s.selected)).2, hprocessed, ?_, ?_, ?_, rfl, ?_⟩
  · rw [hselected, h.map_task_front]
  · have hids : (located s.front found).map (·.task.id) =
        (s.store.agenda.take s.batchMax).map Task.id := by
      rw [located_eq_self hfound, ← h.map_task_front, List.map_map]
      rfl
    refine h.sound.agenda_of_filter hsound s.batchMax ?_
    rw [htasks]
    exact congrArg (fun ids => s.store.tasks.filter (·.id ∉ ids)) hids
  · rw [hselected]
    simp [questions, hsome, Source.ask]
  · have hlt := (List.getElem?_eq_some_iff.mp h.placed).1
    exact ⟨hsound, h.fits, h.installed, List.getElem?_set_self hlt, h.complete⟩

/-- A call takes the front of the agenda off the queue, and asks about it if there is any. -/
theorem Serving.called (h : s.Serving place source) :
    ∃ after source', Called s after place source source' := by
  by_cases hnone : s.front = []
  · exact ⟨s, source, h.called_of_nil hnone⟩
  · exact h.called_of_ne_nil hnone

/-- The clock has no part in what makes calls succeed. -/
theorem Serving.withClock (h : s.Serving place source) (clock : ManualClock) :
    (s.withClock clock).Serving place source :=
  ⟨h.sound, h.fits, h.installed, h.placed, h.complete⟩

/-- The first call comes before the others. -/
theorem drain_cons {ending : Ending ValidationError Outcome} {clock : ManualClock}
    (hprocessed : (s.withClock clock).processBatch Tables.backend = (ending, after))
    (clocks : List ManualClock) :
    s.drain (clock :: clocks) =
      (⟨(s.withClock clock).selected, ending⟩ :: (after.drain clocks).1, (after.drain clocks).2) := by
  rw [drain, hprocessed]

/-- Calls have gone through the agenda from its front, as many tasks in each as fit. -/
structure Drained (s : Scheduler Tables κ) (clocks : List ManualClock) (place : Nat)
    (source source' : Source) : Prop where
  length : (s.drain clocks).1.length = clocks.length
  endings : ∀ report ∈ (s.drain clocks).1,
    report.ending = .ok ⟨report.selected.length, report.selected.length⟩
  selected : ∀ (i : Nat) (report : Report), (s.drain clocks).1[i]? = some report →
    report.selected.map QueuedTask.task = (s.store.agenda.drop (i * s.batchMax)).take s.batchMax
  joined : ((s.drain clocks).1.flatMap fun report => report.selected.map QueuedTask.task) =
    s.store.agenda.take (clocks.length * s.batchMax)
  agenda : (s.drain clocks).2.store.agenda = s.store.agenda.drop (clocks.length * s.batchMax)
  asked : source'.asked = source.asked ++ questions ((s.drain clocks).1.map Report.selected)
  serving : (s.drain clocks).2.Serving place source'

/-- One more call before the others takes the front of the agenda, and they take the rest. -/
theorem Called.drained {clock : ManualClock} {last : Source}
    (hcalled : Called (s.withClock clock) after place source source')
    (h : Drained after clocks place source' last) : Drained s (clock :: clocks) place source last := by
  have hdrain := drain_cons hcalled.processed clocks
  have hsame : after.batchMax = s.batchMax := hcalled.batchMax
  have hfront : (s.withClock clock).selected.map QueuedTask.task = s.store.agenda.take s.batchMax :=
    hcalled.selected
  have hrest : after.store.agenda = s.store.agenda.drop s.batchMax := hcalled.agenda
  have hshift (n : Nat) : s.batchMax + n * s.batchMax = (n + 1) * s.batchMax := by
    rw [Nat.succ_mul, Nat.add_comm]
  constructor <;> rw [hdrain]
  · rw [List.length_cons, h.length, List.length_cons]
  · exact List.forall_mem_cons.mpr ⟨rfl, h.endings⟩
  · intro i report hreport
    cases i with
    | zero =>
      obtain rfl := Option.some.inj hreport
      rw [Nat.zero_mul, List.drop_zero, hfront]
    | succ i =>
      rw [h.selected i report hreport, hrest, hsame, List.drop_drop, hshift]
  · rw [List.flatMap_cons, hfront, h.joined, hrest, hsame, ← List.take_add, List.length_cons, hshift]
  · rw [h.agenda, hrest, hsame, List.drop_drop, List.length_cons, hshift]
  · rw [h.asked, hcalled.asked, List.append_assoc, questions, questions, ← List.map_append,
      ← List.filter_append]
    rfl
  · exact h.serving

/-- Calls go through the agenda one after another. -/
theorem Serving.drained (h : s.Serving place source) (clocks : List ManualClock) :
    ∃ source', Drained s clocks place source source' := by
  induction clocks generalizing s source with
  | nil =>
    refine ⟨source, rfl, nofun, nofun, ?_, ?_, (List.append_nil _).symm, h⟩
    · rw [List.length_nil, Nat.zero_mul, List.take_zero]
      rfl
    · rw [List.length_nil, Nat.zero_mul, List.drop_zero]
      rfl
  | cons clock clocks ih =>
    obtain ⟨after, source', hcalled⟩ := (h.withClock clock).called
    obtain ⟨last, hdrained⟩ := ih hcalled.serving
    exact ⟨last, hcalled.drained hdrained⟩

/-- A batch for which no memory can be set aside crashes, and nothing happens. -/
theorem processBatch_of_overfull (hinstalled : s.installed = some place)
    (hplaced : s.sources[place]? = some source)
    (hover : largestAllocation < s.batchMax * pickedTaskBytes) :
    s.processBatch Tables.backend = (.error .crashed, s) := by
  refine (Ends.processBatch hinstalled (ends_finished hplaced ?_)).1
  exact if_neg (Nat.not_le_of_lt hover)

/-- So does every call, and only the clock moves. -/
theorem drain_of_overfull (hinstalled : s.installed = some place)
    (hplaced : s.sources[place]? = some source)
    (hover : largestAllocation < s.batchMax * pickedTaskBytes) (clocks : List ManualClock) :
    (∀ report ∈ (s.drain clocks).1, report.ending = .error .crashed) ∧
      ∃ clock, (s.drain clocks).2 = s.withClock clock := by
  induction clocks generalizing s with
  | nil => exact ⟨nofun, s.worker.clock, rfl⟩
  | cons clock clocks ih =>
    have hprocessed : (s.withClock clock).processBatch Tables.backend =
        (.error .crashed, s.withClock clock) :=
      processBatch_of_overfull hinstalled hplaced hover
    obtain ⟨hcrashed, last, hlast⟩ := ih (s := s.withClock clock) hinstalled hplaced hover
    rw [drain_cons hprocessed]
    exact ⟨List.forall_mem_cons.mpr ⟨rfl, hcrashed⟩, last, hlast⟩

/-- As many calls as full batches are needed, the last of which may have room left, go through the
whole queue, and none of them comes too late for a task. -/
theorem room_of_calls {n b calls : Nat} (hroomy : 1 ≤ b) (hcalls : calls = (n + b - 1) / b) :
    n ≤ calls * b ∧ ∀ i < calls, i * b < n := by
  constructor
  · have hover : ¬calls + 1 ≤ (n + b - 1) / b := by omega
    rw [Nat.le_div_iff_mul_le hroomy, Nat.succ_mul] at hover
    omega
  · intro i hi
    have hwithin : i + 1 ≤ (n + b - 1) / b := by omega
    rw [Nat.le_div_iff_mul_le hroomy, Nat.succ_mul] at hwithin
    omega

/-- Every one of so many calls selects something, and no more than a full batch. -/
theorem Drained.selected_length (h : Drained s clocks place source source') (hroomy : 1 ≤ s.batchMax)
    (hlength : clocks.length = (s.store.tasks.length + s.batchMax - 1) / s.batchMax)
    {report : Report} (hreport : report ∈ (s.drain clocks).1) :
    1 ≤ report.selected.length ∧ report.selected.length ≤ s.batchMax := by
  obtain ⟨i, hi⟩ := List.mem_iff_getElem?.mp hreport
  have hlt : i < clocks.length := h.length ▸ (List.getElem?_eq_some_iff.mp hi).1
  have hwaiting := (room_of_calls hroomy hlength).2 i hlt
  have hselected := congrArg List.length (h.selected i report hi)
  rw [List.length_map, List.length_take, List.length_drop, s.store.agenda_perm.length_eq] at hselected
  omega

/-- Every call of so many has asked. -/
theorem Drained.questions_eq (h : Drained s clocks place source source') (hroomy : 1 ≤ s.batchMax)
    (hlength : clocks.length = (s.store.tasks.length + s.batchMax - 1) / s.batchMax) :
    questions ((s.drain clocks).1.map Report.selected) =
      (s.drain clocks).1.map (pickedUids ·.selected) := by
  have hall : ∀ selected ∈ (s.drain clocks).1.map Report.selected, (!selected.isEmpty) = true := by
    intro selected hselected
    obtain ⟨report, hreport, rfl⟩ := List.mem_map.mp hselected
    have hsome := (h.selected_length hroomy hlength hreport).1
    simpa using List.ne_nil_of_length_pos hsome
  rw [questions, List.filter_eq_self.mpr hall, List.map_map]
  rfl

/-- Where the queue is empty, calls do nothing. -/
theorem Drained.idle (h : Drained s clocks place source source') (hempty : s.store.tasks = []) :
    (∀ report ∈ (s.drain clocks).1, report.ending = .ok ⟨0, 0⟩ ∧ report.selected = []) ∧
      source'.asked = source.asked ∧ (s.drain clocks).2.store.tasks = [] := by
  have hagenda : s.store.agenda = [] := by
    rw [← List.length_eq_zero_iff, s.store.agenda_perm.length_eq, hempty]
    rfl
  have hnone : ∀ report ∈ (s.drain clocks).1, report.selected = [] := by
    intro report hreport
    obtain ⟨i, hi⟩ := List.mem_iff_getElem?.mp hreport
    have hselected := h.selected i report hi
    rw [hagenda, List.drop_nil, List.take_nil] at hselected
    exact List.map_eq_nil_iff.mp hselected
  refine ⟨fun report hreport => ⟨?_, hnone report hreport⟩, ?_, ?_⟩
  · rw [h.endings report hreport, hnone report hreport]
    rfl
  · have hquestions : questions ((s.drain clocks).1.map Report.selected) = [] := by
      rw [questions, List.filter_eq_nil_iff.mpr]
      · rfl
      · intro selected hselected
        obtain ⟨report, hreport, rfl⟩ := List.mem_map.mp hselected
        simp [hnone report hreport]
    rw [h.asked, hquestions, List.append_nil]
  · have hrest := h.agenda
    rw [hagenda, List.drop_nil] at hrest
    have hperm := (s.drain clocks).2.store.agenda_perm
    rw [hrest] at hperm
    exact hperm.nil_eq.symm

/-- Where batches fit into memory, as many calls as full batches are needed go through the whole queue
in order of priority, age and id. Each succeeds, does all it selected, and asks once about it. Calls
after them find the queue empty, do nothing and do not ask. Where batches do not fit, every call
crashes and nothing happens. -/
theorem drain_in_order (htables : s.store.Reachable) (hroomy : 1 ≤ s.batchMax)
    (hinstalled : s.installed = some place) (hplaced : s.sources[place]? = some source)
    (hcomplete : source.Complete) {first later : List ManualClock}
    (hlength : first.length = (s.store.tasks.length + s.batchMax - 1) / s.batchMax)
    {calls idle : List Report} {between last : Scheduler Tables κ}
    (hfirst : s.drain first = (calls, between)) (hlater : between.drain later = (idle, last)) :
    (s.batchMax * pickedTaskBytes ≤ largestAllocation →
      calls.length = first.length ∧
      (∀ report ∈ calls, ∃ n, report.ending = .ok ⟨n, n⟩ ∧ report.selected.length = n ∧
        1 ≤ n ∧ n ≤ s.batchMax) ∧
      (calls.map (·.selected.length)).sum = s.store.tasks.length ∧
      (calls.flatMap fun report => report.selected.map QueuedTask.task) =
        s.store.tasks.mergeSort Task.comesBefore ∧
      ((calls.flatMap fun report => report.selected.map QueuedTask.task).map Task.id).Nodup ∧
      between.sources[place]?.map Source.asked =
        some (source.asked ++ calls.map (pickedUids ·.selected)) ∧
      (∀ report ∈ calls, (pickedUids report.selected).Nodup ∧
        (pickedUids report.selected).length ≤ s.batchMax) ∧
      between.store.tasks = [] ∧
      (∀ report ∈ idle, report.ending = .ok ⟨0, 0⟩ ∧ report.selected = []) ∧
      last.sources[place]?.map Source.asked = between.sources[place]?.map Source.asked ∧
      last.store.tasks = []) ∧
    (largestAllocation < s.batchMax * pickedTaskBytes →
      (∀ report ∈ calls ++ idle, report.ending = .error .crashed) ∧
        ∃ clock, last = s.withClock clock) := by
  refine ⟨fun hfits => ?_, fun hover => ?_⟩
  · have hserving : s.Serving place source :=
      ⟨htables.sound, hfits, hinstalled, hplaced, hcomplete⟩
    obtain ⟨middle, hdrained⟩ := hserving.drained first
    have hselected {report : Report} (hreport : report ∈ (s.drain first).1) :=
      hdrained.selected_length hroomy hlength hreport
    have hasked := hdrained.asked
    rw [hdrained.questions_eq hroomy hlength] at hasked
    obtain ⟨hcount, hendings, -, hjoined, hagenda, -, hbetween⟩ := hdrained
    rw [hfirst] at hcount hendings hjoined hagenda hbetween hasked hselected
    have hall := (room_of_calls hroomy hlength).1
    rw [← s.store.agenda_perm.length_eq] at hall
    rw [List.take_of_length_le hall] at hjoined
    rw [List.drop_of_length_le hall] at hagenda
    have hempty : between.store.tasks = [] :=
      (hagenda ▸ between.store.agenda_perm).nil_eq.symm
    obtain ⟨ending, hidle⟩ := hbetween.drained later
    obtain ⟨hnothing, hsame, hstill⟩ := hidle.idle hempty
    have hlast := hidle.serving
    rw [hlater] at hnothing hstill hlast
    refine ⟨hcount, fun report hreport => ?_, ?_, hjoined, ?_, ?_, fun report hreport => ?_, hempty,
      hnothing, ?_, hstill⟩
    · exact ⟨_, hendings report hreport, rfl, hselected hreport⟩
    · have hsum := congrArg List.length hjoined
      rw [s.store.agenda_perm.length_eq, List.length_flatMap] at hsum
      simpa using hsum
    · rw [hjoined]
      exact htables.sound.agendaIds_nodup
    · rw [hbetween.placed, Option.map_some, hasked]
    · obtain ⟨hnodup, hle⟩ := pickedUids_nodup_le report.selected
      exact ⟨hnodup, Nat.le_trans hle (hselected hreport).2⟩
    · rw [hlast.placed, hbetween.placed, Option.map_some, Option.map_some, hsame]
  · obtain ⟨hcrashed, clock, hmoved⟩ := drain_of_overfull hinstalled hplaced hover first
    rw [hfirst] at hcrashed hmoved
    obtain rfl : between = s.withClock clock := hmoved
    obtain ⟨hagain, still, hlast⟩ :=
      drain_of_overfull (s := s.withClock clock) hinstalled hplaced hover later
    rw [hlater] at hagain hlast
    exact ⟨List.forall_mem_append.mpr ⟨hcrashed, hagain⟩, still, hlast⟩

/-- Two tasks for the first shop, and an older and more urgent one for the second. -/
def threeTasks : Tables :=
  { twoShops with
    tasks :=
      [Service.firstRequest.toTask ⟨1⟩, Service.firstRequest.toTask ⟨2⟩,
        { Service.firstRequest with shopId := ⟨2⟩, reason := .coordsWereNull, id := ⟨3⟩ }]
    lastTaskId := 3 }

/-- They are queued after the shops. -/
theorem reachable_threeTasks : threeTasks.Reachable :=
  .operation (.insertBatch
      [Service.firstRequest, Service.firstRequest,
        { Service.firstRequest with shopId := ⟨2⟩, reason := .coordsWereNull }]) [⟨1⟩, ⟨2⟩, ⟨3⟩]
    (.operation (.insertShop secondShop) ⟨2⟩
      (.operation (.insertShop Service.firstShop) ⟨1⟩ .empty rfl) rfl) rfl

/-- A scheduler with these tasks and a source that has a position for everywhere. -/
def served (batchMax : Nat) : Scheduler Tables Unit :=
  { Service.unconfigured.scheduler with
    store := threeTasks
    sources := [Service.everywhere.source]
    installed := some 0
    batchMax := batchMax }

theorem drain_in_order_threeTasks :
    ∃ calls between, (served 2).drain [{ now := .epoch }, { now := .latest }] = (calls, between) ∧
      (calls.flatMap fun report => report.selected.map (·.task.id.value)) = [3, 1, 2] ∧
      between.store.tasks = [] := by
  obtain ⟨calls, between, hfirst⟩ : ∃ calls between,
      (served 2).drain [{ now := .epoch }, { now := .latest }] = (calls, between) := ⟨_, _, rfl⟩
  obtain ⟨idle, last, hlater⟩ : ∃ idle last,
      between.drain [{ now := .latest }] = (idle, last) := ⟨_, _, rfl⟩
  obtain ⟨-, -, -, hjoined, -, -, -, hempty, -⟩ :=
    (drain_in_order reachable_threeTasks (by decide) rfl rfl
      (PositionTable.complete_source rfl) (by decide) hfirst hlater).1 (by decide)
  refine ⟨calls, between, hfirst, ?_, hempty⟩
  have hids := congrArg (List.map fun task => task.id.value) hjoined
  have hsorted : (threeTasks.tasks.mergeSort Task.comesBefore).map (fun task => task.id.value) =
      [3, 1, 2] := by cbv
  rw [List.map_flatMap] at hids
  simpa [Function.comp_def] using hids.trans hsorted

theorem not_drained :
    ¬∀ (s : Scheduler Tables Unit) (place : Nat) (source : Source) (first : List ManualClock),
      s.store.Reachable → 1 ≤ s.batchMax → s.installed = some place →
      s.sources[place]? = some source → source.Complete →
      first.length = (s.store.tasks.length + s.batchMax - 1) / s.batchMax →
      ∀ report ∈ (s.drain first).1, ∃ n, report.ending = .ok ⟨n, n⟩ := by
  intro h
  have hover : largestAllocation < (served 18446744073709551615).batchMax * pickedTaskBytes := by
    decide
  have hprocessed : ((served 18446744073709551615).withClock { now := .epoch }).processBatch
      Tables.backend = (.error .crashed, _) := processBatch_of_overfull rfl rfl hover
  have hall := h (served 18446744073709551615) 0 _ [{ now := .epoch }] reachable_threeTasks
    (by decide) rfl rfl (PositionTable.complete_source rfl) (by decide)
  rw [drain_cons hprocessed] at hall
  obtain ⟨n, hn⟩ := hall _ List.mem_cons_self
  cases hn

end Scheduler

end ShopValidation
