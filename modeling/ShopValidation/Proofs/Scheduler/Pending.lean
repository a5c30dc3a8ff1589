import Mathlib
import ShopValidation.Proofs.Scheduler.InProgress
import ShopValidation.Proofs.Store.Forgotten

/-!
# Shops that lack something have a task

A shop without a coordinate or without the time of a validation is covered when a task for it is in
the queue. Queueing the forgotten shops covers all of them. Afterwards they stay covered, since a
batch takes a task off the queue only where it confirms the shop of that task, and whatever else is
done adds to the queue at most.
-/

namespace ShopValidation

namespace Shop

variable {shop : Shop}

/-- A shop that is confirmed lacks nothing. -/
theorem not_lacking_confirm (position : Coordinates) (time : Instant) :
    ¬(shop.confirm position time).Lacking := by
  simp [Lacking, confirm]

/-- A shop that lacks something after validations were written was not named by them. -/
theorem lacking_of_confirmAll {applied : List Applied} (h : (shop.confirmAll applied).Lacking) :
    shop.Lacking ∧ ∀ one ∈ applied, one.shopId ≠ shop.id := by
  rcases shop.confirmAll_cases applied with ⟨last, -, -, heq⟩ | ⟨hnone, heq⟩
  · rw [heq] at h
    exact absurd h (not_lacking_confirm _ _)
  · rw [heq] at h
    exact ⟨h, hnone⟩

end Shop

/-- Every shop that lacks something has a task in the queue. -/
def Tables.Covered (tables : Tables) : Prop :=
  ∀ shop ∈ tables.shops, shop.Lacking → ∃ task ∈ tables.tasks, task.shopId = shop.id

/-- An operation that takes no task off the queue and adds no shop that lacks something. -/
def Operation.KeepsCovered {α : Type} : Operation α → Prop
  | .insertShop shop =>
    shop.lat.isSome = true ∧ shop.lon.isSome = true ∧ shop.lastValidation.isSome = true
  | .delete _ | .applyBatch _ => False
  | _ => True

namespace Tables

variable {tables after : Tables}

/-- Queueing leaves shops covered. -/
theorem Covered.enqueue (h : tables.Covered) (requests : List NewTask) :
    (tables.enqueue requests).2.Covered := by
  intro shop hshop hlacking
  obtain ⟨task, htask, hid⟩ := h shop hshop hlacking
  exact ⟨task, List.mem_append_left _ htask, hid⟩

/-- A shop that is confirmed need not be covered. -/
theorem Covered.confirmShop (h : tables.Covered) (id : ShopId) (position : Coordinates)
    (time : Instant) : (tables.confirmShop id position time).Covered := by
  intro shop hshop hlacking
  obtain ⟨old, hold, rfl⟩ := List.mem_map.mp hshop
  by_cases hid : old.id = id
  · rw [if_pos hid] at hlacking
    exact absurd hlacking (Shop.not_lacking_confirm _ _)
  · rw [if_neg hid] at hlacking ⊢
    exact h old hold hlacking

/-- A shop that lacks nothing may be added. -/
theorem Covered.addShop (h : tables.Covered) {shop : NewShop} {id : ShopId} {last : Int}
    (hwhole : ¬(shop.toShop id).Lacking) :
    { tables with shops := tables.shops ++ [shop.toShop id], lastShopId := last }.Covered := by
  intro one hone hlacking
  rcases List.mem_append.mp hone with hold | hnew
  · exact h one hold hlacking
  · obtain rfl := List.mem_singleton.mp hnew
    exact absurd hlacking hwhole

/-- Writing validations leaves shops covered where each is for a task in the queue and its shop: the
shop of a task that leaves the queue lacks nothing any more. -/
theorem Covered.write (h : tables.Covered) (hsound : tables.Sound) {found : List Resolved}
    {applied : List Applied} (hbacked : ∀ one ∈ applied, tables.Backs found one) :
    ({ tables with
      shops := tables.shops.map (·.confirmAll applied)
      tasks := tables.tasks.filter (·.id ∉ applied.map Applied.taskId) } : Tables).Covered := by
  intro shop hshop hlacking
  obtain ⟨old, hold, rfl⟩ := List.mem_map.mp hshop
  obtain ⟨holdLacking, hunnamed⟩ := Shop.lacking_of_confirmAll hlacking
  obtain ⟨task, htask, hid⟩ := h old hold holdLacking
  have hstays : task.id ∉ applied.map Applied.taskId := by
    intro hnamed
    obtain ⟨one, hone, hsame⟩ := List.mem_map.mp hnamed
    obtain ⟨row, hrow, hrowId, hshopId, -⟩ := hbacked one hone
    obtain rfl := hsound.task_unique hrow htask (hrowId.trans hsame)
    exact hunnamed one hone (hshopId.symm.trans hid)
  exact ⟨task, List.mem_filter.mpr ⟨htask, decide_eq_true hstays⟩, hid.trans Shop.confirmAll_id.symm⟩

/-- Such an operation leaves shops covered where it is not refused. -/
theorem Covered.apply {α : Type} (h : tables.Covered) {operation : Operation α} {answer : α}
    (hkeeps : operation.KeepsCovered) (happly : tables.apply operation = .ok (answer, after)) :
    after.Covered := by
  cases operation with
  | insertShop shop =>
    obtain ⟨-, -, rfl⟩ := insertShop_eq_ok_iff.mp happly
    obtain ⟨hlat, hlon, htime⟩ := hkeeps
    apply h.addShop
    rintro (hnone | hnone | hnone)
    · exact absurd hnone (Option.isSome_iff_ne_none.mp hlat)
    · exact absurd hnone (Option.isSome_iff_ne_none.mp hlon)
    · exact absurd hnone (Option.isSome_iff_ne_none.mp htime)
  | getShop | needing | existsAny | count =>
    cases happly
    exact h
  | confirm id position time =>
    simp only [Tables.apply] at happly
    split at happly <;> cases happly
    exact h.confirmShop id position time
  | insert request =>
    simp only [Tables.apply, Tables.insert] at happly
    split at happly <;> cases happly
    exact h.enqueue [request]
  | select reason limit =>
    simp only [Tables.apply] at happly
    cases hselect : tables.select reason limit <;> rw [hselect] at happly <;> cases happly
    exact h
  | insertBatch requests =>
    obtain ⟨-, henqueue⟩ := insertBatch_eq_ok_iff.mp happly
    have hcovered := h.enqueue requests
    rwa [henqueue] at hcovered
  | delete | applyBatch => exact hkeeps.elim

/-- Such an operation leaves shops covered, refused or not. -/
theorem Covered.perform {α : Type} (h : tables.Covered) {operation : Operation α}
    (hkeeps : operation.KeepsCovered) : (backend.perform operation tables).2.Covered := by
  rcases perform_cases operation tables with ⟨answer, after, happly, heq⟩ | ⟨error, -, heq⟩
  · rw [heq]
    exact h.apply hkeeps happly
  · rw [heq]
    exact h

/-- Forgotten shops can always be queued, and then shops are covered. -/
theorem enqueueForgotten_covers (tables : Tables) (now : Instant) (maxAge : Option Int) :
    ∃ queued after, enqueueForgotten backend now maxAge tables = (.ok queued, after) ∧
      after.Covered ∧ (tables.Sound → after.Sound) := by
  refine ⟨_, _, tables.enqueueForgottenNanos_eq now (inNanos maxAge), fun shop hshop hlacking => ?_,
    fun hsound => hsound.enqueue (tables.hasShop_reconciling _ now)⟩
  have hneeds : shop.needsValidation (cutoff? now (inNanos maxAge)) = true := by
    rw [Shop.needsValidation, Shop.missingReason_isSome_iff.mpr hlacking, Bool.true_or]
  have hold : shop ∈ tables.shops := hshop
  exact isQueued_iff.mp (isQueued_of_needsValidation hold hneeds now)

end Tables

namespace Stage

variable {tables after : Tables} {stage stage' : Stage} {source source' : Source} {batchMax : Nat}
  {now : Instant}

/-- Every step of a batch leaves shops covered. -/
theorem Step.covered {found : List Resolved}
    (h : Step batchMax now tables source stage stage' after source') (hfits : stage.Fits tables found)
    (hsound : tables.Sound) (hcovered : tables.Covered) : after.Covered := by
  cases h with
  | write picked applied after happly =>
    obtain ⟨-, rfl⟩ := Tables.applyBatch_eq_ok_iff.mp happly
    exact hcovered.write hsound hfits
  | _ => exact hcovered

end Stage

/-- What is done with a scheduler and its store, one call after another. -/
inductive Upkeep where
  /-- Somebody performs an operation on the store. -/
  | operate {α : Type} (operation : Operation α)
  /-- Requests are queued. -/
  | schedule (requests : List NewTask)
  /-- Forgotten shops are queued. -/
  | reconcile (now : Instant) (maxAge : Option Int)
  /-- A source is put in place. -/
  | install (source : Source)
  /-- Time passes. -/
  | setClock (time : Instant)
  /-- A batch is carried out. -/
  | processBatch

/-- A call that takes no task off the queue unless by a batch, and adds no shop that lacks something. -/
def Upkeep.KeepsCovered : Upkeep → Prop
  | .operate operation => operation.KeepsCovered
  | _ => True

namespace Scheduler

variable {κ : Type} {s : Scheduler Tables κ}

/-- The scheduler after a call. -/
def upkeep (s : Scheduler Tables κ) : Upkeep → Scheduler Tables κ
  | .operate operation => { s with store := (Tables.backend.perform operation s.store).2 }
  | .schedule requests => (s.schedule Tables.backend requests).2
  | .reconcile now maxAge =>
    { s with store := (enqueueForgotten Tables.backend now maxAge s.store).2 }
  | .install source => s.install source
  | .setClock time => { s with worker := { s.worker with clock := s.worker.clock.set time } }
  | .processBatch => (s.processBatch Tables.backend).2

/-- The scheduler after calls. -/
def upkeepAll (s : Scheduler Tables κ) (calls : List Upkeep) : Scheduler Tables κ :=
  calls.foldl upkeep s

/-- The tables follow their rules, and shops that lack something have a task. -/
structure Maintained (s : Scheduler Tables κ) : Prop where
  sound : s.store.Sound
  covered : s.store.Covered

/-- The steps of a batch that fits the tables keep the scheduler maintained. -/
theorem Maintained.stepsBatch (h : s.Maintained) (n : Nat) {batch : Batch} {found : List Resolved}
    (hfits : batch.stage.Fits s.store found) :
    (s.stepsBatch Tables.backend (fun _ tables => tables) n batch).1.Maintained := by
  induction n generalizing s batch found with
  | zero => exact h
  | succ n ih =>
    rw [Scheduler.stepsBatch, stepBatch]
    cases hsource : s.sources[batch.source]? with
    | none =>
      have hended : (Stage.finished (.error (.refused .notStarted))).Fits s.store found := trivial
      exact ih h hended
    | some source =>
      have hstep : Stage.Step s.batchMax s.worker.clock.now s.store source batch.stage _ _ _ :=
        .of_step rfl
      exact ih ⟨hstep.sound h.sound, hstep.covered hfits h.sound h.covered⟩ (hstep.fits hfits)

/-- A whole batch keeps the scheduler maintained, whatever the source answers. -/
theorem Maintained.processBatch (h : s.Maintained) : (s.processBatch Tables.backend).2.Maintained := by
  unfold Scheduler.processBatch beginBatch
  cases s.installed with
  | none => exact h
  | some source => exact h.stepsBatch _ (Stage.fits_first s.store [] s.batchMax)

/-- Queueing requests keeps the scheduler maintained, whether or not it is refused. -/
theorem Maintained.schedule (h : s.Maintained) (requests : List NewTask) :
    (s.schedule Tables.backend requests).2.Maintained := by
  have hsound := h.sound.perform (.insertBatch requests)
  have hkeeps : (Operation.insertBatch requests).KeepsCovered := trivial
  have hcovered := h.covered.perform hkeeps
  unfold Scheduler.schedule
  split
  · exact h
  · rw [enqueue]
    cases hinsert : Tables.backend.perform (.insertBatch requests) s.store with
    | mk ending tables =>
      rw [hinsert] at hsound hcovered
      cases ending <;> exact ⟨hsound, hcovered⟩

/-- Every such call keeps the scheduler maintained. -/
theorem Maintained.upkeep (h : s.Maintained) {call : Upkeep} (hkeeps : call.KeepsCovered) :
    (s.upkeep call).Maintained := by
  cases call with
  | operate operation => exact ⟨h.sound.perform operation, h.covered.perform hkeeps⟩
  | schedule requests => exact h.schedule requests
  | reconcile now maxAge =>
    obtain ⟨queued, after, heq, hcovered, hsound⟩ := s.store.enqueueForgotten_covers now maxAge
    rw [Scheduler.upkeep, heq]
    exact ⟨hsound h.sound, hcovered⟩
  | install source => exact ⟨h.sound, h.covered⟩
  | setClock time => exact ⟨h.sound, h.covered⟩
  | processBatch => exact h.processBatch

/-- Any number of such calls keep the scheduler maintained. -/
theorem Maintained.upkeepAll (h : s.Maintained) {calls : List Upkeep}
    (hkeeps : ∀ call ∈ calls, call.KeepsCovered) : (s.upkeepAll calls).Maintained := by
  induction calls generalizing s with
  | nil => exact h
  | cons call calls ih =>
    obtain ⟨hfirst, hrest⟩ := List.forall_mem_cons.mp hkeeps
    exact ih (h.upkeep hfirst) hrest

/-- On all tables that operations lead to, forgotten shops can be queued. From then on, whatever
requests are queued, coordinates confirmed, whole shops added and batches carried out, every shop
without a coordinate or without the time of a validation has a task in the queue. -/
theorem task_of_lacking {tables : Tables} (htables : tables.Reachable) (now : Instant)
    (maxAge : Option Int) :
    ∃ queued reconciled,
      enqueueForgotten Tables.backend now maxAge tables = (.ok queued, reconciled) ∧
      ∀ (s : Scheduler Tables κ) (calls : List Upkeep), s.store = reconciled →
        (∀ call ∈ calls, call.KeepsCovered) →
        ∀ shop ∈ (s.upkeepAll calls).store.shops,
          shop.lat = none ∨ shop.lon = none ∨ shop.lastValidation = none →
          ∃ task ∈ (s.upkeepAll calls).store.tasks, task.shopId = shop.id := by
  obtain ⟨queued, reconciled, heq, hcovered, hsound⟩ := tables.enqueueForgotten_covers now maxAge
  refine ⟨queued, reconciled, heq, ?_⟩
  rintro s calls rfl hkeeps
  have hmaintained : s.Maintained := ⟨hsound htables.sound, hcovered⟩
  exact (hmaintained.upkeepAll hkeeps).covered

/-- A shop without coordinates at the second node of the map. -/
def secondShop : NewShop := { Service.firstShop with locationUid := ⟨.node, "2", rfl⟩ }

/-- Tables with two shops that were never validated. -/
def twoShops : Tables where
  shops := [Service.firstShop.toShop ⟨1⟩, secondShop.toShop ⟨2⟩]
  lastShopId := 2

/-- Both shops are in a batch, with one more request for the first, and the source knows the first
only. -/
def partlyResolved : List Upkeep :=
  [.install (.scripted [.exactly [⟨Service.firstShop.locationUid, 52, 13⟩]]),
    .schedule [Service.firstRequest], .processBatch, .reconcile .epoch none]

/-- A scheduler on these tables, configured as where nothing is set, after those calls. -/
def partlyMaintained (tables : Tables) : Scheduler Tables Unit :=
  Scheduler.upkeepAll { Service.unconfigured.scheduler with store := tables } partlyResolved

theorem task_of_lacking_partlyResolved :
    ∃ queued reconciled,
      enqueueForgotten Tables.backend .epoch none twoShops = (.ok queued, reconciled) ∧
      (partlyMaintained reconciled).store.tasks.map (fun task => task.shopId) = [⟨2⟩] ∧
      ∀ shop ∈ (partlyMaintained reconciled).store.shops,
        shop.lat = none ∨ shop.lon = none ∨ shop.lastValidation = none →
        ∃ task ∈ (partlyMaintained reconciled).store.tasks, task.shopId = shop.id := by
  have hreachable : twoShops.Reachable :=
    .operation (.insertShop secondShop) ⟨2⟩
      (.operation (.insertShop Service.firstShop) ⟨1⟩ .empty rfl) rfl
  have hkeeps : ∀ call ∈ partlyResolved, call.KeepsCovered := by
    simp [partlyResolved, Upkeep.KeepsCovered]
  obtain ⟨queued, reconciled, heq, hcovered⟩ := task_of_lacking (κ := Unit) hreachable .epoch none
  refine ⟨queued, reconciled, heq, ?_, hcovered _ partlyResolved rfl hkeeps⟩
  have hview : (partlyMaintained (enqueueForgotten Tables.backend .epoch none twoShops).2).store.tasks.map
      (fun task => task.shopId) = [⟨2⟩] := by cbv
  rwa [heq] at hview

end Scheduler

end ShopValidation
