import Mathlib.Order.Monotone.Basic
import ShopValidation.Proofs.Database.Agreement

/-!
# Memory and database in step

The store in memory and the store in a database are given the same calls, each under its own ids, and
both begin empty. The ids that memory hands out go with those of the database in a renaming that keeps
their order: each is moved up by the numbers that the database has lost before. Whatever other ids the
callers use, as long as the database does not hand them out, both end every call alike and have the
same rows after it.
-/

namespace ShopValidation

open Server

/-- How a store numbers a table: the ids that an answer hands out, their numbers, the last one, and
how many numbers the database loses by a call. An id that is handed out is above the last one before
and not above the last one after, and then nothing is lost. -/
structure Numbering (ι : Type) where
  ids : (call : AnyOperation) → call.Answer → List ι
  value : ι → Int
  last : Tables → Int
  lost : Tables → AnyOperation → Nat
  last_le : ∀ (tables : Tables) (call : AnyOperation),
    last tables ≤ last (Tables.backend.perform call.operation tables).2
  issued : ∀ (tables : Tables) (call : AnyOperation),
    ∀ id ∈ Ending.issued (ids call) (Tables.backend.perform call.operation tables).1,
      last tables < value id ∧
        value id ≤ last (Tables.backend.perform call.operation tables).2 ∧ lost tables call = 0

namespace Numbering

variable {ι : Type} (numbering : Numbering ι)

/-- How many numbers the database loses before a number is handed out. -/
def lostBefore (n : Int) : Tables → List AnyOperation → Nat
  | _, [] => 0
  | tables, call :: later =>
    (if numbering.last tables < n then numbering.lost tables call else 0) +
      lostBefore n (Tables.backend.perform call.operation tables).2 later

/-- More is lost before a larger number. -/
theorem lostBefore_le {m n : Int} (h : m ≤ n) (tables : Tables) (calls : List AnyOperation) :
    numbering.lostBefore m tables calls ≤ numbering.lostBefore n tables calls := by
  induction calls generalizing tables with
  | nil => exact Nat.le_refl _
  | cons call later ih =>
    have hrest := ih (Tables.backend.perform call.operation tables).2
    simp only [lostBefore]
    split <;> split <;> omega

/-- Nothing is lost before a number that was handed out already. -/
theorem lostBefore_eq_zero {n : Int} {tables : Tables} (h : n ≤ numbering.last tables)
    (calls : List AnyOperation) : numbering.lostBefore n tables calls = 0 := by
  induction calls generalizing tables with
  | nil => rfl
  | cons call later ih =>
    have hle := numbering.last_le tables call
    rw [lostBefore, if_neg (by omega), ih (by omega)]

/-- Ids that are handed out are above those handed out before. -/
theorem last_lt_of_issued {tables : Tables} {calls : List AnyOperation} {id : ι}
    (h : id ∈ Tables.backend.issued numbering.ids tables calls) :
    numbering.last tables < numbering.value id := by
  induction calls generalizing tables with
  | nil => cases h
  | cons call later ih =>
    have hle := numbering.last_le tables call
    rcases List.mem_append.mp h with hnow | hlater
    · exact (numbering.issued tables call id hnow).1
    · have hlt := ih hlater
      omega

/-- The number of the database for a number of memory. -/
def renumber (calls : List AnyOperation) (n : Int) : Int := n + numbering.lostBefore n {} calls

/-- The order of numbers is kept. -/
theorem renumber_lt (calls : List AnyOperation) {m n : Int} (h : m < n) :
    numbering.renumber calls m < numbering.renumber calls n := by
  have hle := numbering.lostBefore_le (Int.le_of_lt h) {} calls
  unfold renumber
  omega

/-- Whether ids are taken to the numbers that they have after some were lost, for all ids that calls
hand out. -/
def Shifts (f : ι → Int) (g : Int) (tables : Tables) (calls : List AnyOperation) : Prop :=
  ∀ id ∈ Tables.backend.issued numbering.ids tables calls,
    f id = numbering.value id + (g + numbering.lostBefore (numbering.value id) tables calls)

/-- The ids that the first call hands out are moved up by what was lost before it. -/
theorem Shifts.now {numbering : Numbering ι} {f : ι → Int} {g : Int} {tables : Tables}
    {call : AnyOperation} {later : List AnyOperation}
    (h : numbering.Shifts f g tables (call :: later)) :
    ∀ id ∈ Ending.issued (numbering.ids call) (Tables.backend.perform call.operation tables).1,
      f id = numbering.value id + g := by
  intro id hid
  obtain ⟨hlt, hle, hlost⟩ := numbering.issued tables call id hid
  rw [h id (List.mem_append_left _ hid), lostBefore, hlost, numbering.lostBefore_eq_zero hle]
  simp

/-- The ids that later calls hand out are moved up by what the first call loses, too. -/
theorem Shifts.later {numbering : Numbering ι} {f : ι → Int} {g : Int} {tables : Tables}
    {call : AnyOperation} {later : List AnyOperation}
    (h : numbering.Shifts f g tables (call :: later)) :
    numbering.Shifts f (g + numbering.lost tables call)
      (Tables.backend.perform call.operation tables).2 later := by
  intro id hid
  have hlt := numbering.last_lt_of_issued hid
  have hle := numbering.last_le tables call
  rw [h id (List.mem_append_right _ hid), lostBefore, if_pos (by omega)]
  omega

end Numbering

namespace Tables

/-- The id of a new shop is the next one, and no number is lost. -/
theorem issued_shop (tables : Tables) (call : AnyOperation) {id : ShopId}
    (h : id ∈ Ending.issued call.shopIds (backend.perform call.operation tables).1) :
    tables.lastShopId < id.value ∧
      id.value ≤ (backend.perform call.operation tables).2.lastShopId ∧
      tables.lostShops call.operation = 0 := by
  obtain ⟨Answer, operation⟩ := call
  rcases perform_cases operation tables with ⟨answer, after, happly, heq⟩ | ⟨error, -, heq⟩
  · simp only [heq] at h ⊢
    cases operation with
    | insertShop shop =>
      obtain rfl := List.mem_singleton.mp h
      obtain ⟨hfree, rfl, rfl⟩ := insertShop_eq_ok_iff.mp happly
      have hlost : tables.lostShops (.insertShop shop) = 0 := if_neg (by simpa using hfree)
      exact ⟨Int.lt_succ _, Int.le_refl _, hlost⟩
    | _ => cases h
  · simp only [heq] at h
    cases h

/-- The ids of new tasks are the next ones, and no number is lost. -/
theorem issued_task (tables : Tables) (call : AnyOperation) {id : TaskId}
    (h : id ∈ Ending.issued call.taskIds (backend.perform call.operation tables).1) :
    tables.lastTaskId < id.value ∧
      id.value ≤ (backend.perform call.operation tables).2.lastTaskId ∧
      tables.lostTasks call.operation = 0 := by
  obtain ⟨Answer, operation⟩ := call
  rcases perform_cases operation tables with ⟨answer, after, happly, heq⟩ | ⟨error, -, heq⟩
  · simp only [heq] at h ⊢
    cases operation with
    | insert request =>
      obtain rfl := List.mem_singleton.mp h
      simp only [Tables.apply, Tables.insert] at happly
      split at happly
      · rename_i hshop
        cases happly
        rw [enqueue_singleton]
        have hlost : tables.lostTasks (.insert request) = 0 := if_pos (by simpa using hshop)
        exact ⟨Int.lt_succ _, Int.le_refl _, hlost⟩
      · cases happly
    | insertBatch requests =>
      obtain ⟨hshops, henqueue⟩ := insertBatch_eq_ok_iff.mp happly
      rw [enqueue_eq] at henqueue
      cases henqueue
      obtain ⟨task, htask, rfl⟩ := List.mem_map.mp h
      have hlost : tables.lostTasks (.insertBatch requests) = 0 := if_pos (by simpa using hshops)
      exact ⟨(id_newRows htask).1, (id_newRows htask).2, hlost⟩
    | _ => cases h
  · simp only [heq] at h
    cases h

/-- Increasing numbers are no more than there are numbers in their range. -/
theorem length_le_of_increasing {numbers : List Int} {a b : Int} (hab : a ≤ b)
    (hincreasing : numbers.Pairwise (· < ·)) (hrange : ∀ n ∈ numbers, a < n ∧ n ≤ b) :
    (numbers.length : Int) ≤ b - a := by
  induction numbers generalizing a with
  | nil => simpa using hab
  | cons n rest ih =>
    obtain ⟨hn, -⟩ := List.forall_mem_cons.mp hrange
    obtain ⟨habove, hrest⟩ := List.pairwise_cons.mp hincreasing
    have hlength := ih hn.2 hrest fun m hm => ⟨habove m hm, (hrange m (List.mem_cons_of_mem _ hm)).2⟩
    rw [List.length_cons]
    omega

/-- No more tasks are queued than ids were handed out. -/
theorem Sound.length_tasks_le {tables : Tables} (h : tables.Sound) :
    (tables.tasks.length : Int) ≤ tables.lastTaskId := by
  have hlength := length_le_of_increasing h.lastTaskId_nonneg h.tasks_increasing
    (List.forall_mem_map.mpr h.task_issued)
  rwa [List.length_map, Int.sub_zero] at hlength

end Tables

/-- The numbers of shops. -/
def shopNumbers : Numbering ShopId where
  ids := AnyOperation.shopIds
  value := ShopId.value
  last := Tables.lastShopId
  lost tables call := tables.lostShops call.operation
  last_le tables call := (Tables.effect_perform call tables).keeps.lastShopId
  issued tables call _ hid := tables.issued_shop call hid

/-- The numbers of tasks. -/
def taskNumbers : Numbering TaskId where
  ids := AnyOperation.taskIds
  value := TaskId.value
  last := Tables.lastTaskId
  lost tables call := tables.lostTasks call.operation
  last_le tables call := (Tables.effect_perform call tables).keeps.lastTaskId
  issued tables call _ hid := tables.issued_task call hid

/-- A renaming that keeps the order of ids. -/
structure Renaming.OrderPreserving (r : Renaming) : Prop where
  shop_lt : ∀ a b : ShopId, a.value < b.value → (r.shop a).value < (r.shop b).value
  task_lt : ∀ a b : TaskId, a.value < b.value → (r.task a).value < (r.task b).value

/-- A renaming that takes ids that were handed out to the same ids as another, and no other id to one
of these. -/
structure Renaming.GoesWith (r base : Renaming) (shopIds : List ShopId) (taskIds : List TaskId) :
    Prop where
  shop_eq : ∀ a ∈ shopIds, r.shop a = base.shop a
  shop_ne : ∀ b ∉ shopIds, ∀ a ∈ shopIds, r.shop b ≠ base.shop a
  task_eq : ∀ a ∈ taskIds, r.task a = base.task a
  task_ne : ∀ b ∉ taskIds, ∀ a ∈ taskIds, r.task b ≠ base.task a

namespace Renaming

variable {r base : Renaming} {shopIds : List ShopId} {taskIds : List TaskId}

/-- A renaming that keeps the order of ids tells shops apart. -/
theorem OrderPreserving.shop_inj (h : r.OrderPreserving) {a b : ShopId}
    (heq : r.shop a = r.shop b) : a = b := by
  have hmono : StrictMono fun n => (r.shop ⟨n⟩).value := fun m n hlt => h.shop_lt ⟨m⟩ ⟨n⟩ hlt
  exact congrArg ShopId.mk (hmono.injective (congrArg ShopId.value heq))

/-- A renaming that keeps the order of ids tells tasks apart. -/
theorem OrderPreserving.task_inj (h : r.OrderPreserving) {a b : TaskId}
    (heq : r.task a = r.task b) : a = b := by
  have hmono : StrictMono fun n => (r.task ⟨n⟩).value := fun m n hlt => h.task_lt ⟨m⟩ ⟨n⟩ hlt
  exact congrArg TaskId.mk (hmono.injective (congrArg TaskId.value heq))

/-- A renaming that keeps the order of ids goes with itself. -/
theorem OrderPreserving.goesWith (h : r.OrderPreserving) (shopIds : List ShopId)
    (taskIds : List TaskId) : r.GoesWith r shopIds taskIds where
  shop_eq _ _ := rfl
  shop_ne _ hb _ ha heq := hb (h.shop_inj heq ▸ ha)
  task_eq _ _ := rfl
  task_ne _ hb _ ha heq := hb (h.task_inj heq ▸ ha)

/-- What goes with a renaming that keeps the order is good for the ids that were handed out. -/
theorem GoesWith.faithful (h : r.GoesWith base shopIds taskIds) (hbase : base.OrderPreserving) :
    r.Faithful shopIds taskIds where
  shop_inj a ha b heq := by
    rw [h.shop_eq a ha] at heq
    by_cases hb : b ∈ shopIds
    · exact hbase.shop_inj (heq.trans (h.shop_eq b hb))
    · exact absurd heq.symm (h.shop_ne b hb a ha)
  shop_lt a ha b hb hlt := by
    rw [h.shop_eq a ha, h.shop_eq b hb]
    exact hbase.shop_lt a b hlt
  task_inj a ha b heq := by
    rw [h.task_eq a ha] at heq
    by_cases hb : b ∈ taskIds
    · exact hbase.task_inj (heq.trans (h.task_eq b hb))
    · exact absurd heq.symm (h.task_ne b hb a ha)
  task_lt a ha b hb hlt := by
    rw [h.task_eq a ha, h.task_eq b hb]
    exact hbase.task_lt a b hlt

/-- The renaming that calls bring about: every id is moved up by the numbers that were lost before. -/
def ofCalls (calls : List AnyOperation) : Renaming where
  shop id := ⟨shopNumbers.renumber calls id.value⟩
  task id := ⟨taskNumbers.renumber calls id.value⟩

/-- The renaming that calls bring about keeps the order of ids. -/
theorem orderPreserving_ofCalls (calls : List AnyOperation) : (ofCalls calls).OrderPreserving where
  shop_lt _ _ hlt := shopNumbers.renumber_lt calls hlt
  task_lt _ _ hlt := taskNumbers.renumber_lt calls hlt

/-- A call under the other ids. -/
def call (r : Renaming) (call : AnyOperation) : AnyOperation :=
  ⟨call.Answer, r.operation call.operation⟩

end Renaming

/-- Memory and the database have come as far as calls that are still to be made, and have lost some
numbers on the way. -/
structure InStep (r : Renaming) (shopIds : List ShopId) (taskIds : List TaskId)
    (calls : List AnyOperation) (tables : Tables) (contents : Contents) (g k : Int) : Prop where
  alike : Alike r shopIds taskIds tables contents
  shops : shopNumbers.Shifts (fun id => (r.shop id).value) g tables calls
  tasks : taskNumbers.Shifts (fun id => (r.task id).value) k tables calls
  shop_mem : ∀ id ∈ Tables.backend.issued AnyOperation.shopIds tables calls, id ∈ shopIds
  task_mem : ∀ id ∈ Tables.backend.issued AnyOperation.taskIds tables calls, id ∈ taskIds
  times : ∀ call ∈ calls, ∀ t ∈ call.operation.times, t.IsWhole
  room : (Tables.backend.after tables calls).lastTaskId ≤ Statement.largestLimit

namespace InStep

variable {r : Renaming} {shopIds : List ShopId} {taskIds : List TaskId} {call : AnyOperation}
  {past later : List AnyOperation} {tables : Tables} {contents : Contents} {g k : Int}

/-- The next call goes in the database as in memory. -/
theorem parallel (h : InStep r shopIds taskIds (call :: later) tables contents g k) :
    Parallel r shopIds taskIds tables contents g k call.operation := by
  have htimes := h.times call List.mem_cons_self
  have hshops : ∀ id ∈ Ending.issued call.shopIds (Tables.backend.perform call.operation tables).1,
      id ∈ shopIds ∧ (r.shop id).value = id.value + g := fun id hid =>
    ⟨h.shop_mem id (List.mem_append_left _ hid), h.shops.now id hid⟩
  have htasks : ∀ id ∈ Ending.issued call.taskIds (Tables.backend.perform call.operation tables).1,
      id ∈ taskIds ∧ (r.task id).value = id.value + k := fun id hid =>
    ⟨h.task_mem id (List.mem_append_left _ hid), h.tasks.now id hid⟩
  obtain ⟨Answer, operation⟩ := call
  cases operation with
  | insertShop shop =>
    obtain ⟨-, hlast⟩ := List.forall_mem_cons.mp htimes
    refine h.alike.insertShop (by simpa using hlast) fun hfree => ?_
    have happly : tables.apply (.insertShop shop) = _ :=
      Tables.insertShop_eq_ok_iff.mpr ⟨hfree, rfl, rfl⟩
    rw [Tables.perform_of_eq_ok happly] at hshops
    obtain ⟨hmem, hid⟩ := hshops _ (List.mem_singleton.mpr rfl)
    refine ⟨hmem, congrArg ShopId.mk (hid.trans ?_)⟩
    dsimp only
    omega
  | getShop id => exact h.alike.getShop id
  | needing excludeQueued staleBefore =>
    exact h.alike.needing excludeQueued (by simpa [Operation.times] using htimes)
  | confirm id position time =>
    exact h.alike.confirmShop id position (htimes time List.mem_cons_self)
  | insert request =>
    refine h.alike.insertTask (htimes _ List.mem_cons_self) fun hshop => ?_
    have happly : tables.apply (.insert request) =
        .ok (⟨tables.lastTaskId + 1⟩, (tables.enqueue [request]).2) := if_pos hshop
    rw [Tables.perform_of_eq_ok happly] at htasks
    obtain ⟨hmem, hid⟩ := htasks _ (List.mem_singleton.mpr rfl)
    exact ⟨hmem, congrArg TaskId.mk hid⟩
  | select reason limit =>
    have hlength := h.alike.sound.length_tasks_le
    have hroom := h.room
    have hle := (Tables.keeps_after tables (⟨_, .select reason limit⟩ :: later)).lastTaskId
    exact h.alike.select reason limit (by omega)
  | delete id => exact h.alike.delete id
  | existsAny => exact h.alike.existsAny
  | count => exact h.alike.count
  | insertBatch requests =>
    refine h.alike.insertBatch (List.forall_mem_map.mp htimes) fun hall id hid => ?_
    have happly : tables.apply (.insertBatch requests) = _ :=
      Tables.insertBatch_eq_ok_iff.mpr ⟨hall, rfl⟩
    rw [Tables.perform_of_eq_ok happly] at htasks
    obtain ⟨hmem, heq⟩ := htasks id hid
    exact ⟨hmem, congrArg TaskId.mk heq⟩
  | applyBatch applied => exact h.alike.applyBatch (List.forall_mem_map.mp htimes)

/-- After the next call both are in step again. -/
theorem step (h : InStep r shopIds taskIds (call :: later) tables contents g k) :
    ∃ ending contents' g' k',
      Server.backend.perform (r.operation call.operation)
          (resting contents (tables.lastShopId + g) (tables.lastTaskId + k)) =
        (ending, resting contents'
          ((Tables.backend.perform call.operation tables).2.lastShopId + g')
          ((Tables.backend.perform call.operation tables).2.lastTaskId + k')) ∧
      r.EndsAlike call.operation (Tables.backend.perform call.operation tables).1 ending ∧
      InStep r shopIds taskIds later (Tables.backend.perform call.operation tables).2 contents'
        g' k' := by
  obtain ⟨ending, contents', hdatabase, hends, halike⟩ := h.parallel
  exact ⟨ending, contents', _, _, hdatabase, hends, halike, h.shops.later, h.tasks.later,
    fun id hid => h.shop_mem id (List.mem_append_right _ hid),
    fun id hid => h.task_mem id (List.mem_append_right _ hid),
    fun call' hcall => h.times call' (List.mem_cons_of_mem _ hcall), h.room⟩

/-- Along calls both stay in step. -/
theorem after (h : InStep r shopIds taskIds (past ++ later) tables contents g k) :
    ∃ contents' g' k',
      Server.backend.after (resting contents (tables.lastShopId + g) (tables.lastTaskId + k))
          (past.map r.call) =
        resting contents' ((Tables.backend.after tables past).lastShopId + g')
          ((Tables.backend.after tables past).lastTaskId + k') ∧
      InStep r shopIds taskIds later (Tables.backend.after tables past) contents' g' k' := by
  induction past generalizing tables contents g k with
  | nil => exact ⟨contents, g, k, rfl, h⟩
  | cons call past ih =>
    obtain ⟨ending, next, g', k', hdatabase, -, hnext⟩ := h.step
    obtain ⟨contents', g'', k'', hafter, hlater⟩ := ih hnext
    refine ⟨contents', g'', k'', ?_, hlater⟩
    rw [List.map_cons, Backend.after, Renaming.call, hdatabase]
    exact hafter

end InStep

/-- Before the first call both are empty, and whatever goes with the renaming that the calls bring
about keeps them in step. -/
theorem inStep_of_goesWith {r : Renaming} {calls : List AnyOperation}
    (htimes : ∀ call ∈ calls, ∀ t ∈ call.operation.times, t.IsWhole)
    (hroom : (Tables.backend.after {} calls).lastTaskId ≤ Statement.largestLimit)
    (hr : r.GoesWith (.ofCalls calls) (Tables.backend.issued AnyOperation.shopIds {} calls)
      (Tables.backend.issued AnyOperation.taskIds {} calls)) :
    InStep r (Tables.backend.issued AnyOperation.shopIds {} calls)
      (Tables.backend.issued AnyOperation.taskIds {} calls) calls {} {} 0 0 where
  alike :=
    { shops := ⟨fun _ => Instant.epoch, rfl⟩
      tasks := rfl
      faithful := hr.faithful (Renaming.orderPreserving_ofCalls calls)
      sound := Tables.sound_empty
      whole := ⟨by simp, by simp⟩
      shop_mem := by simp
      task_mem := by simp }
  shops id hid := by
    rw [Int.zero_add]
    exact congrArg ShopId.value (hr.shop_eq id hid)
  tasks id hid := by
    rw [Int.zero_add]
    exact congrArg TaskId.value (hr.task_eq id hid)
  shop_mem _ hid := hid
  task_mem _ hid := hid
  times := htimes
  room := hroom

/-- For all calls whose times are whole numbers of microseconds, and that need no more task ids than
there are in sixty-four bits, there is a renaming that keeps the order of ids, under which memory and
the database end every call alike and have the same rows after it. So it is under every renaming that
goes with it for the ids that memory hands out, whatever it does to ids that nobody was given. -/
theorem endsAlike_of_goesWith (calls : List AnyOperation)
    (htimes : ∀ call ∈ calls, ∀ t ∈ call.operation.times, t.IsWhole)
    (hroom : (Tables.backend.after {} calls).lastTaskId ≤ Statement.largestLimit) :
    let shopIds := Tables.backend.issued AnyOperation.shopIds {} calls
    let taskIds := Tables.backend.issued AnyOperation.taskIds {} calls
    ∃ base : Renaming, base.OrderPreserving ∧ base.GoesWith base shopIds taskIds ∧
      ∀ r : Renaming, r.GoesWith base shopIds taskIds →
        ∀ (past : List AnyOperation) (call : AnyOperation) (later : List AnyOperation),
          calls = past ++ call :: later →
          let memory := Tables.backend.perform call.operation (Tables.backend.after {} past)
          let database := Server.backend.perform (r.operation call.operation)
            (Server.backend.after {} (past.map r.call))
          r.EndsAlike call.operation memory.1 database.1 ∧
            r.Corresponds memory.2 database.2.committed ∧ database.2.working = none := by
  intro shopIds taskIds
  have horder := Renaming.orderPreserving_ofCalls calls
  refine ⟨.ofCalls calls, horder, horder.goesWith shopIds taskIds, ?_⟩
  intro r hr past call later hcalls memory database
  have hbegin := inStep_of_goesWith htimes hroom hr
  rw [hcalls] at hbegin
  obtain ⟨contents, g, k, hafter, hinStep⟩ := hbegin.after
  obtain ⟨ending, contents', g', k', hdatabase, hends, hnext⟩ := hinStep.step
  have hperform : database = _ := (congrArg (Server.backend.perform _) hafter).trans hdatabase
  rw [hperform]
  exact ⟨hends, hnext.alike.toCorresponds, rfl⟩

/-- One who adds shops and asks for their places. -/
def surveyor : UserId := ⟨7, by decide⟩

/-- A shop of which nothing is known but where it is listed. -/
def listedShop (uid : LocationUid) : NewShop where
  locationUid := uid
  creator := surveyor
  createdAt := .epoch

/-- A request to look where a shop is. -/
def lookFor (id : ShopId) : NewTask where
  shopId := id
  source := surveyor
  reason := .shopMoved
  enqueuedAt := .epoch

/-- Calls by which the database loses numbers: a shop is put in twice, and a batch has a request for a
shop that is not there. -/
def wastefulCalls : List AnyOperation :=
  [⟨_, .insertShop (listedShop ⟨.way, "30", rfl⟩)⟩, ⟨_, .insertShop (listedShop ⟨.way, "30", rfl⟩)⟩,
    ⟨_, .insertShop (listedShop ⟨.way, "31", rfl⟩)⟩, ⟨_, .insertBatch [lookFor ⟨2⟩, lookFor ⟨9⟩]⟩,
    ⟨_, .insertBatch [lookFor ⟨2⟩, lookFor ⟨1⟩]⟩]

/-- A look at all shops that need validation. -/
def lookAtAll : AnyOperation := ⟨_, .needing false none⟩

theorem endsAlike_of_goesWith_wastefulCalls :
    (∀ call ∈ wastefulCalls ++ [lookAtAll], ∀ t ∈ call.operation.times, t.IsWhole) ∧
      (Tables.backend.after {} (wastefulCalls ++ [lookAtAll])).lastTaskId ≤
        Statement.largestLimit ∧
      ∃ base : Renaming, base.OrderPreserving ∧
        let memory := Tables.backend.perform lookAtAll.operation
          (Tables.backend.after {} wastefulCalls)
        let database := Server.backend.perform (base.operation lookAtAll.operation)
          (Server.backend.after {} (wastefulCalls.map base.call))
        base.EndsAlike lookAtAll.operation memory.1 database.1 ∧
          base.Corresponds memory.2 database.2.committed ∧ database.2.working = none := by
  have htimes : ∀ call ∈ wastefulCalls ++ [lookAtAll], ∀ t ∈ call.operation.times, t.IsWhole := by
    simp [wastefulCalls, lookAtAll, Operation.times, listedShop, lookFor, Instant.IsWhole,
      Instant.epoch]
  have hroom : (Tables.backend.after {} (wastefulCalls ++ [lookAtAll])).lastTaskId ≤
      Statement.largestLimit := by
    decide +kernel
  obtain ⟨base, horder, hgoes, hends⟩ := endsAlike_of_goesWith _ htimes hroom
  exact ⟨htimes, hroom, base, horder, hends base hgoes wastefulCalls lookAtAll [] rfl⟩

end ShopValidation
