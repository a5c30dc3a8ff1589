import ShopValidation.Proofs.Scheduler.Service

/-!
# The books of a service

The books are the tables, the rows that were ever queued and the batches that were ever written. As
long as rows are deleted and coordinates written by batches alone, a move changes them in one of
three ways, if at all: a shop is added, requests are queued, or a batch is written.

They are in order when every row that was ever queued waits in the queue as it was queued, or one
batch was written that is done with it. Each of the three ways keeps them so, a batch as long as it
is backed by the tables that it is written to.
-/

namespace ShopValidation

/-- Whether a move leaves the deletion of rows and the writing of coordinates to batches. -/
def Move.sparesRows {κ : Type} : Move κ → Bool
  | .change (.addShop _) => true
  | .change _ => false
  | _ => true

/-- Whether a shop is at a location. -/
def Tables.HasShopAt (tables : Tables) (id : ShopId) (uid : LocationUid) : Prop :=
  ∃ shop ∈ tables.shops, shop.id = id ∧ shop.locationUid = uid

/-- The tables, with every row that was ever queued and every batch that was ever written. -/
structure Books where
  tables : Tables
  issued : List Task
  written : List Written

namespace Books

/-- The books with a new shop. -/
def addShop (books : Books) (shop : NewShop) : Books :=
  { books with
    tables :=
      { books.tables with
        shops := books.tables.shops ++ [shop.toShop ⟨books.tables.lastShopId + 1⟩]
        lastShopId := books.tables.lastShopId + 1 } }

/-- The books with the rows of requests. -/
def enqueue (books : Books) (requests : List NewTask) : Books :=
  { books with
    tables := (books.tables.enqueue requests).2
    issued := books.issued ++ books.tables.newRows requests }

/-- The books with one more batch written. -/
def write (books : Books) (found : List Resolved) (applied : List Applied) : Books :=
  { books with
    tables :=
      { books.tables with
        shops := books.tables.shops.map (·.confirmAll applied)
        tasks := books.tables.tasks.filter (·.id ∉ applied.map Applied.taskId) }
    written := books.written ++ [⟨found, applied⟩] }

/-- What a move does to the books, given the batch in progress. -/
inductive Step (running : Option Running) (books : Books) : Books → Prop where
  | same : Step running books books
  | addShop (shop : NewShop)
    (hfree : ∀ old ∈ books.tables.shops, old.locationUid ≠ shop.locationUid) :
    Step running books (books.addShop shop)
  | enqueue (requests : List NewTask)
    (hshops : ∀ request ∈ requests, books.tables.hasShop request.shopId = true) :
    Step running books (books.enqueue requests)
  | write (consumer : Consumer) (source : Nat) (picked : List QueuedTask) (applied : List Applied)
    (found : List Resolved)
    (hrunning : running = some ⟨consumer, ⟨source, .applying picked applied⟩, found⟩)
    (hshops : ∀ one ∈ applied, books.tables.hasShop one.shopId = true) :
    Step running books (books.write found applied)

end Books

namespace Service

variable {κ : Type} {service after : Service κ} {move : Move κ}

/-- The books of a service. -/
def books (service : Service κ) : Books := ⟨service.tables, service.issued, service.written⟩

/-- An event of the worker does not change the books. -/
@[simp] theorem books_turn (service : Service κ) (event : Event κ) (worker : Worker κ) :
    ((service.turn event).withWorker worker).books = service.books := by
  cases event <;> rfl

/-- A step of a batch changes the books only where it writes. -/
theorem books_withStage {running : Running} {source source' : Source} {stage : Stage}
    {tables : Tables} (hrunning : service.running = some running)
    (hstage : Stage.Step service.scheduler.batchMax service.worker.clock.now service.tables source
      running.batch.stage stage tables source') :
    Books.Step service.running service.books (service.withStage running stage tables source').books := by
  obtain ⟨consumer, ⟨place, before⟩, found⟩ := running
  cases hstage with
  | write picked applied after happly =>
    obtain ⟨hshops, rfl⟩ := Tables.applyBatch_eq_ok_iff.mp happly
    exact .write consumer place picked applied found hrunning hshops
  | _ =>
    change Books.Step _ _ ⟨service.tables, service.issued, service.written ++ []⟩
    rw [List.append_nil]
    exact .same

/-- Where rows are spared, a move does one of these things to the books. -/
theorem Step.books (h : Step service move after) (hspares : move.sparesRows = true) :
    Books.Step service.running service.books after.books := by
  cases h with
  | change change =>
    cases change with
    | addShop shop =>
      rcases Change.on_addShop_cases service.tables shop with ⟨hfree, heq⟩ | heq
      · rw [heq]
        exact .addShop shop hfree
      · rw [heq]
        exact .same
    | _ => cases hspares
  | enqueue requests hshops => exact .enqueue requests hshops
  | requeue hstarting hshops => exact .enqueue service.forgotten hshops
  | event event worker hadmits hstep =>
    rw [books_turn]
    exact .same
  | stepBatch running source source' stage tables hrunning hsource hstage =>
    exact books_withStage hrunning hstage
  | _ => exact .same

end Service

/-- A validation is for a task in the queue and its shop, with a position that the source gave for the
location of the shop. -/
def Tables.Backs (tables : Tables) (found : List Resolved) (one : Applied) : Prop :=
  ∃ task ∈ tables.tasks, task.id = one.taskId ∧ task.shopId = one.shopId ∧
    ∃ answer ∈ found, answer.coordinates = one.coordinates ∧
      tables.HasShopAt one.shopId answer.uid

namespace Books

variable {books after : Books} {task : Task}

/-- A new shop leaves the others where they are. -/
theorem hasShopAt_addShop {id : ShopId} {uid : LocationUid} (shop : NewShop)
    (h : books.tables.HasShopAt id uid) : (books.addShop shop).tables.HasShopAt id uid := by
  obtain ⟨old, hold, hid, huid⟩ := h
  exact ⟨old, List.mem_append_left _ hold, hid, huid⟩

/-- Shops stay where they are when a batch is written. -/
theorem hasShopAt_write {found : List Resolved} {applied : List Applied} {id : ShopId}
    {uid : LocationUid} (h : books.tables.HasShopAt id uid) :
    (books.write found applied).tables.HasShopAt id uid := by
  obtain ⟨shop, hmem, hid, huid⟩ := h
  exact ⟨_, List.mem_map_of_mem hmem, Shop.confirmAll_id.trans hid,
    Shop.confirmAll_locationUid.trans huid⟩

/-- The number of batches written that are done with a task. -/
def completions (books : Books) (id : TaskId) : Nat := books.written.countP (·.completes id)

/-- The task is in the queue with the row that it was queued with, and no batch is done with it. -/
def Waiting (books : Books) (task : Task) : Prop :=
  task ∈ books.tables.tasks ∧ books.completions task.id = 0

/-- The task is off the queue, and one batch was written that is done with it. The source had given a
position for the location of its shop. -/
structure Done (books : Books) (task : Task) : Prop where
  gone : ∀ row ∈ books.tables.tasks, row.id ≠ task.id
  once : books.completions task.id = 1
  resolved : ∃ written ∈ books.written, ∃ one ∈ written.applied, one.taskId = task.id ∧
    one.shopId = task.shopId ∧
    ∃ answer ∈ written.found, books.tables.HasShopAt task.shopId answer.uid

/-- Every row that was ever queued is accounted for. -/
structure Accounts (books : Books) : Prop where
  sound : books.tables.Sound
  issued_increasing : (books.issued.map (·.id.value)).Pairwise (· < ·)
  issued_le : ∀ task ∈ books.issued, task.id.value ≤ books.tables.lastTaskId
  completed_le : ∀ written ∈ books.written, ∀ one ∈ written.applied,
    one.taskId.value ≤ books.tables.lastTaskId
  accounted : ∀ task ∈ books.issued, books.Waiting task ∨ books.Done task

/-- A batch that was written is done with the tasks of its validations. -/
theorem completes_iff {written : Written} {id : TaskId} :
    written.completes id = true ↔ ∃ one ∈ written.applied, one.taskId = id := by
  simp [Written.completes]

/-- No batch is done with a task that has an id above all that were handed out. -/
theorem Accounts.completions_eq_zero (h : books.Accounts) {id : TaskId}
    (hid : books.tables.lastTaskId < id.value) : books.completions id = 0 := by
  rw [completions, List.countP_eq_zero]
  intro written hwritten hcompletes
  obtain ⟨one, hone, rfl⟩ := completes_iff.mp hcompletes
  have hle := h.completed_le written hwritten one hone
  omega

/-- A task stays done where no row is added under its id and no batch is written. -/
theorem Done.keep (h : books.Done task) (hgone : ∀ row ∈ after.tables.tasks, row.id ≠ task.id)
    (hshops : ∀ id uid, books.tables.HasShopAt id uid → after.tables.HasShopAt id uid)
    (hwritten : after.written = books.written) : after.Done task where
  gone := hgone
  once := by rw [completions, hwritten]; exact h.once
  resolved := by
    obtain ⟨written, hmem, one, hone, hid, hshopId, answer, hanswer, hshop⟩ := h.resolved
    exact ⟨written, hwritten ▸ hmem, one, hone, hid, hshopId, answer, hanswer, hshops _ _ hshop⟩

/-- One more batch counts for the tasks of its validations. -/
theorem completions_write (books : Books) (found : List Resolved) (applied : List Applied)
    (id : TaskId) : (books.write found applied).completions id =
      books.completions id + if id ∈ applied.map Applied.taskId then 1 else 0 := by
  have hcompletes :
      (Written.completes ⟨found, applied⟩ id = true) = (id ∈ applied.map Applied.taskId) :=
    propext (completes_iff.trans List.mem_map.symm)
  simp only [completions, write, List.countP_append, List.countP_singleton, hcompletes]

/-- A task that waits is done once a batch with it is written, and waits on otherwise. -/
theorem Waiting.write (h : books.Waiting task) (hsound : books.tables.Sound) {found : List Resolved}
    {applied : List Applied} (hbacked : ∀ one ∈ applied, books.tables.Backs found one) :
    (books.write found applied).Waiting task ∨ (books.write found applied).Done task := by
  by_cases hnamed : task.id ∈ applied.map Applied.taskId
  · obtain ⟨one, hone, hid⟩ := List.mem_map.mp hnamed
    obtain ⟨row, hrow, hrowId, hshopId, answer, hanswer, -, hshop⟩ := hbacked one hone
    obtain rfl := hsound.task_unique hrow h.1 (hrowId.trans hid)
    have hgone : ∀ other ∈ (books.write found applied).tables.tasks, other.id ≠ row.id := by
      intro other hother hsame
      have hunnamed := of_decide_eq_true (List.mem_filter.mp hother).2
      exact hunnamed (hsame ▸ hnamed)
    have honce : (books.write found applied).completions row.id = 1 := by
      rw [completions_write, h.2, if_pos hnamed]
    have hwritten : ⟨found, applied⟩ ∈ (books.write found applied).written :=
      List.mem_append_right _ (List.mem_singleton_self _)
    have hkept : (books.write found applied).tables.HasShopAt one.shopId answer.uid :=
      hasShopAt_write hshop
    exact .inr ⟨hgone, honce, _, hwritten, one, hone, hid, hshopId.symm, answer, hanswer,
      hshopId ▸ hkept⟩
  · have hstays : task ∈ (books.write found applied).tables.tasks :=
      List.mem_filter.mpr ⟨h.1, decide_eq_true hnamed⟩
    have hnever : (books.write found applied).completions task.id = 0 := by
      rw [completions_write, h.2, if_neg hnamed]
    exact .inl ⟨hstays, hnever⟩

/-- A task that is done is not written again. -/
theorem Done.write (h : books.Done task) {found : List Resolved} {applied : List Applied}
    (hbacked : ∀ one ∈ applied, books.tables.Backs found one) :
    (books.write found applied).Done task where
  gone row hrow := h.gone row (List.mem_of_mem_filter hrow)
  once := by
    have hunnamed : task.id ∉ applied.map Applied.taskId := by
      intro hnamed
      obtain ⟨one, hone, hid⟩ := List.mem_map.mp hnamed
      obtain ⟨row, hrow, hrowId, -⟩ := hbacked one hone
      exact h.gone row hrow (hrowId.trans hid)
    rw [completions_write, h.once, if_neg hunnamed]
  resolved := by
    obtain ⟨written, hmem, one, hone, hid, hshopId, answer, hanswer, hshop⟩ := h.resolved
    exact ⟨written, List.mem_append_left _ hmem, one, hone, hid, hshopId, answer, hanswer,
      hasShopAt_write hshop⟩

/-- The accounts are in order where nothing was queued by the service yet. -/
theorem accounts_nil {tables : Tables} (h : tables.Sound) : (Books.mk tables [] []).Accounts where
  sound := h
  issued_increasing := .nil
  issued_le := by simp
  completed_le := by simp
  accounted := by simp

/-- A new shop changes no account. -/
theorem Accounts.addShop (h : books.Accounts) {shop : NewShop}
    (hfree : ∀ old ∈ books.tables.shops, old.locationUid ≠ shop.locationUid) :
    (books.addShop shop).Accounts where
  sound := h.sound.addShop hfree
  issued_increasing := h.issued_increasing
  issued_le := h.issued_le
  completed_le := h.completed_le
  accounted task htask := by
    rcases h.accounted task htask with hwaiting | hdone
    · exact .inl hwaiting
    · exact .inr (hdone.keep hdone.gone (fun _ _ => hasShopAt_addShop shop) rfl)

/-- New rows wait, and change no other account. -/
theorem Accounts.enqueue (h : books.Accounts) {requests : List NewTask}
    (hshops : ∀ request ∈ requests, books.tables.hasShop request.shopId = true) :
    (books.enqueue requests).Accounts where
  sound := h.sound.enqueue hshops
  issued_increasing := by
    have hbelow : ∀ old ∈ books.issued, ∀ new ∈ books.tables.newRows requests,
        old.id.value < new.id.value := by
      intro old hold new hnew
      have hle := h.issued_le old hold
      have hlt := (Tables.id_newRows hnew).1
      omega
    rw [Books.enqueue, List.map_append, List.pairwise_append]
    exact ⟨h.issued_increasing, Tables.newRows_increasing books.tables requests,
      List.forall_mem_map.mpr fun old hold => List.forall_mem_map.mpr (hbelow old hold)⟩
  issued_le task htask := by
    simp only [Books.enqueue, Tables.enqueue_eq]
    rcases List.mem_append.mp htask with hold | hnew
    · have hle := h.issued_le task hold
      omega
    · exact (Tables.id_newRows hnew).2
  completed_le written hwritten one hone := by
    have hle := h.completed_le written hwritten one hone
    simp only [Books.enqueue, Tables.enqueue_eq]
    omega
  accounted task htask := by
    rcases List.mem_append.mp htask with hold | hnew
    · rcases h.accounted task hold with hwaiting | hdone
      · exact .inl ⟨List.mem_append_left _ hwaiting.1, hwaiting.2⟩
      · have hgone : ∀ row ∈ (books.enqueue requests).tables.tasks, row.id ≠ task.id := by
          intro row hrow hsame
          rcases List.mem_append.mp hrow with holdRow | hnewRow
          · exact hdone.gone row holdRow hsame
          · have hle := h.issued_le task hold
            have hlt := (Tables.id_newRows hnewRow).1
            rw [hsame] at hlt
            omega
        exact .inr (hdone.keep hgone (fun _ _ => id) rfl)
    · exact .inl ⟨List.mem_append_right _ hnew, h.completions_eq_zero (Tables.id_newRows hnew).1⟩

/-- A batch that is written moves its tasks from those that wait to those that are done. -/
theorem Accounts.write (h : books.Accounts) {found : List Resolved} {applied : List Applied}
    (hbacked : ∀ one ∈ applied, books.tables.Backs found one) :
    (books.write found applied).Accounts where
  sound :=
    (h.sound.mapShops (f := (·.confirmAll applied)) (fun _ => Shop.confirmAll_id)
      fun _ => Shop.confirmAll_locationUid).filterTasks _
  issued_increasing := h.issued_increasing
  issued_le := h.issued_le
  completed_le written hwritten one hone := by
    rcases List.mem_append.mp hwritten with hold | hnew
    · exact h.completed_le written hold one hone
    · obtain rfl := List.mem_singleton.mp hnew
      obtain ⟨row, hrow, hid, -⟩ := hbacked one hone
      exact hid ▸ (h.sound.task_issued row hrow).2
  accounted task htask := by
    rcases h.accounted task htask with hwaiting | hdone
    · exact hwaiting.write h.sound hbacked
    · exact .inr (hdone.write hbacked)

end Books

end ShopValidation
