import ShopValidation.Proofs.Scheduler.Books

/-!
# What a batch in progress relies on

Rows may be queued at any moment of a batch, also for shops that it has picked. What it has picked
stays as it was until it is written, so that a batch is always backed by the tables when it is
written, and the books stay in order.
-/

namespace ShopValidation

/-- A picked task is in the queue, beside its shop, whose location it knows. -/
def Tables.Current (tables : Tables) (queued : QueuedTask) : Prop :=
  queued.task ∈ tables.tasks ∧ queued.shop.id = queued.task.shopId ∧
    tables.HasShopAt queued.shop.id queued.shop.locationUid

namespace Tables

variable {tables : Tables} {found : List Resolved}

/-- Selected rows are in the queue, beside their shops. -/
theorem current_of_select {reason : Reason} {limit : Nat} {rows : List QueuedTask}
    (h : tables.select reason limit = .ok rows) : ∀ queued ∈ rows, tables.Current queued := by
  intro queued hqueued
  obtain ⟨hshop, hid⟩ := mem_of_shop? ((select_eq_ok h).2 queued hqueued)
  exact ⟨(mem_of_select h hqueued).1, hid, queued.shop, hshop, rfl, rfl⟩

/-- The validations of picked tasks are backed by the answer that they come from. -/
theorem backs_of_validations {picked : List QueuedTask} {now : Instant} {one : Applied}
    (hcurrent : ∀ queued ∈ picked, tables.Current queued)
    (hone : one ∈ validations picked found now) : tables.Backs found one := by
  obtain ⟨queued, hqueued, position, hlast, rfl⟩ := mem_validations_iff.mp hone
  obtain ⟨answer, hanswer, huid, hposition⟩ := mem_of_lastPosition? hlast
  obtain ⟨htask, hid, hshop⟩ := hcurrent queued hqueued
  exact ⟨queued.task, htask, rfl, hid.symm, answer, hanswer, hposition, huid ▸ hshop⟩

end Tables

/-- What a batch in progress relies on, given what the source has answered. -/
def Stage.Fits (tables : Tables) (found : List Resolved) : Stage → Prop
  | .selecting picked _ => ∀ queued ∈ picked, tables.Current queued
  | .resolving picked => ∀ queued ∈ picked, tables.Current queued
  | .stamping picked answer => (∀ queued ∈ picked, tables.Current queued) ∧ answer = found
  | .applying _ applied => ∀ one ∈ applied, tables.Backs found one
  | .finished _ => True

namespace Stage

variable {tables after : Tables} {found : List Resolved} {stage : Stage}

/-- A batch may go on where no row has left the queue and no shop its location. -/
theorem Fits.mono (h : stage.Fits tables found) (htasks : tables.tasks ⊆ after.tasks)
    (hshops : ∀ id uid, tables.HasShopAt id uid → after.HasShopAt id uid) :
    stage.Fits after found := by
  have hcurrent : ∀ queued, tables.Current queued → after.Current queued := by
    rintro queued ⟨htask, hid, hshop⟩
    exact ⟨htasks htask, hid, hshops _ _ hshop⟩
  cases stage with
  | selecting picked reasons =>
    intro queued hmem
    exact hcurrent queued (h queued hmem)
  | resolving picked =>
    intro queued hmem
    exact hcurrent queued (h queued hmem)
  | stamping picked answer =>
    obtain ⟨hpicked, hanswer⟩ := h
    exact ⟨fun queued hmem => hcurrent queued (hpicked queued hmem), hanswer⟩
  | applying picked applied =>
    intro one hone
    obtain ⟨task, htask, hid, hshopId, answer, hanswer, hposition, hshop⟩ := h one hone
    exact ⟨task, htasks htask, hid, hshopId, answer, hanswer, hposition, hshops _ _ hshop⟩
  | finished ending => trivial

/-- A batch begins with nothing picked. -/
theorem fits_first (tables : Tables) (found : List Resolved) (batchMax : Nat) :
    (Stage.first batchMax).Fits tables found := by
  unfold Stage.first
  split
  · exact List.forall_mem_nil _
  · trivial

/-- Every step of a batch keeps what it relies on. -/
theorem Step.fits {batchMax : Nat} {now : Instant} {source source' : Source} {stage' : Stage}
    (h : Step batchMax now tables source stage stage' after source')
    (hfits : stage.Fits tables found) : stage'.Fits after (stage'.found?.getD found) := by
  cases h with
  | full picked reasons =>
    unfold Stage.picked
    split
    · trivial
    · exact hfits
  | pick picked rows reason reasons hroom hselect =>
    intro queued hmem
    rcases List.mem_append.mp hmem with hold | hnew
    · exact hfits queued hold
    · exact Tables.current_of_select hselect queued hnew
  | ask picked =>
    unfold Stage.answered
    split
    · exact ⟨hfits, rfl⟩
    · trivial
    · trivial
  | stamp picked answer =>
    obtain ⟨hcurrent, rfl⟩ := hfits
    unfold Stage.stamped
    split
    · trivial
    · intro one hone
      exact Tables.backs_of_validations hcurrent hone
  | _ => trivial

end Stage

/-- Coordinates are confirmed where shops stay where they are. -/
theorem Tables.hasShopAt_confirmShop {tables : Tables} {id other : ShopId} {uid : LocationUid}
    (position : Coordinates) (time : Instant) (h : tables.HasShopAt other uid) :
    (tables.confirmShop id position time).HasShopAt other uid := by
  obtain ⟨shop, hshop, hid, huid⟩ := h
  refine ⟨_, List.mem_map_of_mem hshop, ?_, ?_⟩
  · split <;> exact hid
  · split <;> exact huid

/-- Whether a move leaves the tasks in the queue to batches. -/
def Move.sparesTasks {κ : Type} : Move κ → Bool
  | .change (.delete _) | .change (.apply _) => false
  | _ => true

/-- A move that spares the rows of the store spares its tasks. -/
theorem Move.sparesTasks_of_sparesRows {κ : Type} {move : Move κ} (h : move.sparesRows = true) :
    move.sparesTasks = true := by
  cases move with
  | change change =>
    cases change with
    | addShop shop => rfl
    | _ => cases h
  | _ => rfl

namespace Service

variable {κ : Type} {service after : Service κ} {move : Move κ}

/-- The batch in progress, if any, may go on. -/
def Fits (service : Service κ) : Prop :=
  ∀ running, service.running = some running → running.batch.stage.Fits service.tables running.found

/-- A batch that begins may go on. -/
theorem fits_begun (service : Service κ) (consumer : Consumer) :
    (service.begun consumer).batch.stage.Fits service.tables (service.begun consumer).found := by
  unfold begun Scheduler.beginBatch
  cases service.scheduler.installed with
  | none => trivial
  | some source => exact Stage.fits_first _ _ _

/-- A batch may go on where the same one is in progress and no row has left the queue. -/
theorem Fits.frame (h : service.Fits) (hrunning : after.running = service.running)
    (htasks : service.tables.tasks ⊆ after.tables.tasks)
    (hshops : ∀ id uid, service.tables.HasShopAt id uid → after.tables.HasShopAt id uid) :
    after.Fits :=
  fun running hsome => (h running (hrunning ▸ hsome)).mono htasks hshops

/-- Where tasks are spared, every move lets the batch in progress go on. -/
theorem Fits.step (h : service.Fits) (hstep : Step service move after)
    (hspares : move.sparesTasks = true) : after.Fits := by
  cases hstep with
  | change change =>
    cases change with
    | addShop shop =>
      rcases Change.on_addShop_cases service.tables shop with ⟨-, heq⟩ | heq
      · rw [heq]
        have hkept : ∀ id uid, service.tables.HasShopAt id uid →
            (service.books.addShop shop).tables.HasShopAt id uid :=
          fun _ _ hshop => Books.hasShopAt_addShop shop hshop
        exact h.frame rfl (List.Subset.refl _) hkept
      · rw [heq]
        exact h
    | confirm id position time =>
      rcases Change.on_confirm_cases service.tables id position time with heq | heq
      · rw [heq]
        exact h.frame rfl (List.Subset.refl _) fun _ _ =>
          Tables.hasShopAt_confirmShop position time
      · rw [heq]
        exact h
    | _ => cases hspares
  | enqueue requests hshops => exact h.frame rfl (List.subset_append_left _ _) fun _ _ => id
  | requeue hstarting hshops => exact h.frame rfl (List.subset_append_left _ _) fun _ _ => id
  | event event worker hadmits hworker =>
    cases event with
    | beginWork =>
      intro running hrunning
      cases hrunning
      exact fits_begun service .loop
    | endWork succeeded => exact nofun
    | _ => exact h
  | beginBatch hfree =>
    intro running hrunning
    cases hrunning
    exact fits_begun service .caller
  | stepBatch running source source' stage tables hrunning hsource hstage =>
    intro next hnext
    cases hnext
    exact hstage.fits (h running hrunning)
  | stepBatchLost running hrunning hsource =>
    intro next hnext
    cases hnext
    trivial
  | endBatch => exact nofun
  | _ => exact h

/-- Where rows are spared, every move keeps the accounts in order. -/
theorem Step.accounts (h : Step service move after) (hspares : move.sparesRows = true)
    (hfits : service.Fits) (haccounts : service.books.Accounts) : after.books.Accounts := by
  have hbooks := h.books hspares
  generalize hafter : after.books = books at hbooks ⊢
  cases hbooks with
  | same => exact haccounts
  | addShop shop hfree => exact haccounts.addShop hfree
  | enqueue requests hshops => exact haccounts.enqueue hshops
  | write consumer source picked applied found hrunning hshops =>
    exact haccounts.write (hfits _ hrunning)

/-- The books of a service are in order, and its batch in progress may go on. -/
structure InOrder (service : Service κ) : Prop where
  accounts : service.books.Accounts
  fits : service.Fits

/-- Where rows are spared, every move leaves a service in order. -/
theorem InOrder.step (h : service.InOrder) (hstep : Step service move after)
    (hspares : move.sparesRows = true) : after.InOrder where
  accounts := hstep.accounts hspares h.fits h.accounts
  fits := h.fits.step hstep (Move.sparesTasks_of_sparesRows hspares)

/-- A service that begins has queued nothing and written nothing. -/
theorem Begins.inOrder (h : service.Begins) (htables : service.tables.Reachable) :
    service.InOrder := by
  obtain ⟨config, clock, tables, scheduler, -, rfl⟩ := h
  exact ⟨Books.accounts_nil htables.sound, nofun⟩

/-- Where rows are spared, a service is in order after every run. -/
theorem Begins.inOrder_run {moves : List (Move κ)} (h : service.Begins)
    (htables : service.tables.Reachable) (hrun : service.run moves = some after)
    (hspares : ∀ move ∈ moves, move.sparesRows = true) : after.InOrder := by
  apply run_induct hrun (h.inOrder htables)
  intro move hmove s s' hs hstep
  exact hs.step hstep (hspares move hmove)

end Service

end ShopValidation
