import Mathlib
import ShopValidation.Proofs.Store.History
import ShopValidation.Store.Reconcile

/-!
# Which shops are forgotten

A shop is forgotten when no task for it waits and it lacks something or was validated too long ago,
where ages are compared as exact numbers. A reconciliation of tables in memory always succeeds. It
queues one task for each forgotten shop, in the order of the shops, and changes nothing else. After it
no shop is forgotten, whatever is queued later, so that doing it again does nothing.
-/

namespace ShopValidation

/-- A shop without a coordinate or without the time of a validation. -/
def Shop.Lacking (shop : Shop) : Prop :=
  shop.lat = none ∨ shop.lon = none ∨ shop.lastValidation = none

/-- Whether the last validation of a shop was longer ago than a maximal age, in nanoseconds. -/
def Shop.Overdue (shop : Shop) (now : Instant) (maxAge : Option Int) : Prop :=
  ∃ age t, maxAge = some age ∧ shop.lastValidation = some t ∧ t.nanos < now.nanos - age

namespace Instant

variable {now t : Instant}

/-- Ages are compared with the cutoff as exact numbers: a cutoff below the range has nothing before it,
as no instant is. -/
theorem isBefore_shift?_iff (hnow : now.inLeapSecond = false) (ht : t.inLeapSecond = false) {age : Int}
    (hage : 0 < age) : (now.shift? (-age)).any t.isBefore = true ↔ t.nanos < now.nanos - age := by
  have htRange := t.nanos_range ht
  have hnowRange := now.nanos_range hnow
  unfold shift?
  cases hcutoff : ofNanos? (now.nanos + -age) with
  | none =>
    rw [ofNanos?_eq_none_iff] at hcutoff
    refine iff_of_false nofun ?_
    omega
  | some cutoff =>
    have hnano : t.nano < 1000000000 := by simpa [inLeapSecond] using ht
    rw [Option.any_some, isBefore_iff_nanos_lt hnano (nano_lt_of_ofNanos? hcutoff),
      nanos_of_ofNanos? hcutoff]
    omega

end Instant

namespace Shop

variable {shop : Shop} {now : Instant} {maxAge : Option Int}

/-- There is a reason to validate a shop for what it lacks exactly where it lacks something. -/
theorem missingReason_isSome_iff : shop.missingReason.isSome = true ↔ shop.Lacking := by
  obtain ⟨id, uid, lat, lon, lastValidation, creator⟩ := shop
  cases lat <;> cases lon <;> cases lastValidation <;>
    simp [missingReason, coordinates, Lacking]

/-- A shop needs validation where it lacks something or was validated too long ago. -/
theorem needsValidation_cutoff?_iff (hnow : now.inLeapSecond = false)
    (hshop : ∀ t, shop.lastValidation = some t → t.inLeapSecond = false)
    (hage : ∀ age, maxAge = some age → 0 < age) :
    shop.needsValidation (cutoff? now maxAge) = true ↔ shop.Lacking ∨ shop.Overdue now maxAge := by
  have hoverdue : (cutoff? now maxAge).any shop.validatedBefore = true ↔ shop.Overdue now maxAge := by
    cases maxAge with
    | none => simp [cutoff?, Overdue]
    | some age =>
      cases htime : shop.lastValidation with
      | none =>
        have hnever : shop.validatedBefore = fun _ => false := by
          funext cutoff
          simp [validatedBefore, htime]
        simp [Overdue, htime, hnever]
      | some t =>
        have hsame : shop.validatedBefore = t.isBefore := by
          funext cutoff
          simp [validatedBefore, htime]
        have hexact := Instant.isBefore_shift?_iff hnow (hshop t htime) (hage age rfl)
        simpa [cutoff?, Overdue, htime, hsame] using hexact
  rw [needsValidation, Bool.or_eq_true, missingReason_isSome_iff, hoverdue]

/-- The reason for which a forgotten shop is queued: a missing coordinate counts before a missing time,
and what lacks nothing is due for revalidation. -/
theorem reason_reconciling (shop : Shop) (now : Instant) :
    (shop.reconciling now).reason =
      if shop.lat.isNone || shop.lon.isNone then .coordsWereNull
      else if shop.lastValidation.isNone then .neverValidatedBefore
      else .periodicRevalidation := by
  obtain ⟨id, uid, lat, lon, lastValidation, creator⟩ := shop
  cases lat <;> cases lon <;> cases lastValidation <;> rfl

end Shop

/-- A call that neither changes a shop nor takes a task off the queue. -/
def AnyOperation.OnlyQueues : AnyOperation → Prop
  | ⟨_, .insertShop _⟩ | ⟨_, .confirm ..⟩ | ⟨_, .delete _⟩ | ⟨_, .applyBatch _⟩ => False
  | _ => True

namespace Tables

variable {tables : Tables} {shop : Shop} {now : Instant} {maxAge : Option Int}
  {staleBefore : Option Instant}

/-- A shop without a task that lacks something or was validated too long ago. -/
def Forgotten (tables : Tables) (now : Instant) (maxAge : Option Int) (shop : Shop) : Prop :=
  (∀ task ∈ tables.tasks, task.shopId ≠ shop.id) ∧ (shop.Lacking ∨ shop.Overdue now maxAge)

/-- A shop is queued when some task is for it. -/
theorem isQueued_iff {id : ShopId} :
    tables.isQueued id = true ↔ ∃ task ∈ tables.tasks, task.shopId = id := by
  simp [isQueued]

/-- A search that leaves out queued shops finds the others that need validation. -/
theorem mem_needing_iff : shop ∈ tables.needing true staleBefore ↔
    shop ∈ tables.shops ∧ shop.needsValidation staleBefore = true ∧
      ∀ task ∈ tables.tasks, task.shopId ≠ shop.id := by
  simp [needing, isQueued]

/-- The shops that a search finds are the forgotten ones. -/
theorem mem_needing_cutoff?_iff (hnow : now.inLeapSecond = false)
    (htimes : ∀ shop ∈ tables.shops, ∀ t, shop.lastValidation = some t → t.inLeapSecond = false)
    (hage : ∀ age, maxAge = some age → 0 < age) (hshop : shop ∈ tables.shops) :
    shop ∈ tables.needing true (cutoff? now maxAge) ↔ tables.Forgotten now maxAge shop := by
  rw [mem_needing_iff, and_iff_right hshop,
    Shop.needsValidation_cutoff?_iff hnow (htimes shop hshop) hage]
  exact and_comm

/-- There is a row of each shop that a search finds. -/
theorem hasShop_reconciling (tables : Tables) (staleBefore : Option Instant) (now : Instant) :
    ∀ request ∈ (tables.needing true staleBefore).map (·.reconciling now),
      tables.hasShop request.shopId = true := by
  intro request hrequest
  obtain ⟨shop, hshop, rfl⟩ := List.mem_map.mp hrequest
  exact hasShop_iff.mpr ⟨shop, (mem_needing_iff.mp hshop).1, rfl⟩

/-- The new rows are for the shops that were found, in their order. -/
theorem newRows_reconciling_shopId (tables : Tables) (found : List Shop) (now : Instant) :
    (tables.newRows (found.map (·.reconciling now))).map (·.shopId) = found.map Shop.id := by
  rw [newRows_shopId, List.map_map]
  rfl

/-- In memory a reconciliation queues what the search finds, and is never refused. -/
theorem enqueueForgottenNanos_eq (tables : Tables) (now : Instant) (maxAge : Option Int) :
    enqueueForgottenNanos backend now maxAge tables =
      (.ok (tables.needing true (cutoff? now maxAge)).length,
        (tables.enqueue ((tables.needing true (cutoff? now maxAge)).map (·.reconciling now))).2) := by
  have hinsert := insertBatch_eq_ok_iff.mpr
    ⟨tables.hasShop_reconciling (cutoff? now maxAge) now, enqueue_eq tables _⟩
  simp only [enqueueForgottenNanos, backend, Tables.apply]
  cases hneeding : tables.needing true (cutoff? now maxAge) with
  | nil => simp [enqueue]
  | cons shop shops =>
    rw [hneeding] at hinsert
    simp only [hinsert, enqueue_eq]
    simp [newRows, Except.map]

/-- Once what a search found is queued, every shop that needs validation has a task. -/
theorem isQueued_of_needsValidation (hshop : shop ∈ tables.shops)
    (hneeds : shop.needsValidation staleBefore = true) (now : Instant) :
    (tables.enqueue ((tables.needing true staleBefore).map (·.reconciling now))).2.isQueued
      shop.id = true := by
  rw [isQueued_iff]
  by_cases hqueued : ∃ task ∈ tables.tasks, task.shopId = shop.id
  · obtain ⟨task, htask, hid⟩ := hqueued
    exact ⟨task, List.mem_append_left _ htask, hid⟩
  · have hfound : shop ∈ tables.needing true staleBefore :=
      mem_needing_iff.mpr ⟨hshop, hneeds, fun task htask hid => hqueued ⟨task, htask, hid⟩⟩
    have hrow := List.mem_map_of_mem (f := Shop.id) hfound
    rw [← tables.newRows_reconciling_shopId _ now] at hrow
    obtain ⟨task, htask, hid⟩ := List.mem_map.mp hrow
    exact ⟨task, List.mem_append_right _ htask, hid⟩

/-- Such a call adds rows to the queue at most. -/
theorem perform_onlyQueues (tables : Tables) {call : AnyOperation} (hcall : call.OnlyQueues) :
    (backend.perform call.operation tables).2.shops = tables.shops ∧
      ∃ rows, (backend.perform call.operation tables).2.tasks = tables.tasks ++ rows := by
  obtain ⟨Answer, operation⟩ := call
  rcases perform_cases operation tables with ⟨answer, after, happly, heq⟩ | ⟨error, -, heq⟩
  · rw [heq]
    cases operation with
    | insertShop | confirm | delete | applyBatch => exact hcall.elim
    | getShop | needing | existsAny | count =>
      cases happly
      exact ⟨rfl, [], (List.append_nil _).symm⟩
    | insert request =>
      simp only [Tables.apply, Tables.insert] at happly
      split at happly <;> cases happly
      exact ⟨rfl, _, rfl⟩
    | select reason limit =>
      simp only [Tables.apply] at happly
      cases hselect : tables.select reason limit <;> rw [hselect] at happly <;> cases happly
      exact ⟨rfl, [], (List.append_nil _).symm⟩
    | insertBatch requests =>
      obtain ⟨-, henqueue⟩ := insertBatch_eq_ok_iff.mp happly
      obtain rfl := congrArg Prod.snd henqueue
      exact ⟨rfl, _, rfl⟩
  · rw [heq]
    exact ⟨rfl, [], (List.append_nil _).symm⟩

/-- Any number of such calls add rows to the queue at most. -/
theorem after_onlyQueues (tables : Tables) {calls : List AnyOperation}
    (hcalls : ∀ call ∈ calls, call.OnlyQueues) :
    (backend.after tables calls).shops = tables.shops ∧
      ∃ rows, (backend.after tables calls).tasks = tables.tasks ++ rows := by
  induction calls generalizing tables with
  | nil => exact ⟨rfl, [], (List.append_nil _).symm⟩
  | cons call calls ih =>
    obtain ⟨hcall, hrest⟩ := List.forall_mem_cons.mp hcalls
    obtain ⟨hshops, rows, htasks⟩ := tables.perform_onlyQueues hcall
    obtain ⟨hshops', more, htasks'⟩ := ih (backend.perform call.operation tables).2 hrest
    refine ⟨hshops'.trans hshops, rows ++ more, ?_⟩
    rw [Backend.after, htasks', htasks, List.append_assoc]

/-- Where every shop that needs validation has a task, a reconciliation does nothing. -/
theorem enqueueForgottenNanos_eq_zero
    (hqueued : ∀ shop ∈ tables.shops, shop.needsValidation (cutoff? now maxAge) = true →
      tables.isQueued shop.id = true) :
    enqueueForgottenNanos backend now maxAge tables = (.ok 0, tables) := by
  have hnone : tables.needing true (cutoff? now maxAge) = [] := by
    refine List.eq_nil_iff_forall_not_mem.mpr fun shop hfound => ?_
    obtain ⟨hshop, hneeds, hfree⟩ := mem_needing_iff.mp hfound
    obtain ⟨task, htask, hid⟩ := isQueued_iff.mp (hqueued shop hshop hneeds)
    exact hfree task htask hid
  rw [enqueueForgottenNanos_eq, hnone]
  simp [enqueue]

/-- Later calls that add rows to the queue at most leave nothing to do for another reconciliation. -/
theorem enqueueForgottenNanos_again (tables : Tables) (now : Instant) (maxAge : Option Int)
    {calls : List AnyOperation} (hcalls : ∀ call ∈ calls, call.OnlyQueues) :
    let later := backend.after (enqueueForgottenNanos backend now maxAge tables).2 calls
    enqueueForgottenNanos backend now maxAge later = (.ok 0, later) := by
  rw [enqueueForgottenNanos_eq]
  obtain ⟨hshops, rows, htasks⟩ := (tables.enqueue
    ((tables.needing true (cutoff? now maxAge)).map (·.reconciling now))).2.after_onlyQueues hcalls
  refine enqueueForgottenNanos_eq_zero fun shop hshop hneeds => ?_
  have hold : shop ∈ tables.shops := by rwa [hshops] at hshop
  obtain ⟨task, htask, hid⟩ := isQueued_iff.mp (isQueued_of_needsValidation hold hneeds now)
  refine isQueued_iff.mpr ⟨task, ?_, hid⟩
  rw [htasks]
  exact List.mem_append_left _ htask

/-- Each new row is the request for a shop that was found. -/
theorem mem_newRows_reconciling {row : Task}
    (h : row ∈ tables.newRows ((tables.needing true staleBefore).map (·.reconciling now))) :
    ∃ shop ∈ tables.needing true staleBefore, row.toNewTask = shop.reconciling now := by
  have hrequest := List.mem_map_of_mem (f := Task.toNewTask) h
  rw [toNewTask_newRows] at hrequest
  obtain ⟨shop, hshop, hrow⟩ := List.mem_map.mp hrequest
  exact ⟨shop, hshop, hrow.symm⟩

/-- On all tables that operations lead to, a reconciliation is never refused. It adds one task for each
shop that has none and lacks something or was validated too long ago, in the order of the shops and
under the next ids, and changes nothing else. Whatever is queued after it, another one does nothing. -/
theorem forgotten_queued_once (htables : tables.Reachable) (hnow : now.inLeapSecond = false)
    (htimes : ∀ shop ∈ tables.shops, ∀ t, shop.lastValidation = some t → t.inLeapSecond = false)
    (hage : ∀ age, maxAge = some age → 0 < age) :
    ∃ rows after, enqueueForgottenNanos backend now maxAge tables = (.ok rows.length, after) ∧
      after = { tables with
        tasks := tables.tasks ++ rows
        lastTaskId := tables.lastTaskId + rows.length } ∧
      (∀ shop ∈ tables.shops,
        (∃ row ∈ rows, row.shopId = shop.id) ↔ tables.Forgotten now maxAge shop) ∧
      (rows.map (·.shopId.value)).Pairwise (· < ·) ∧
      rows.map Task.id =
        (List.range' 1 rows.length).map (fun i : Nat => ⟨tables.lastTaskId + i⟩) ∧
      (∀ row ∈ rows, ∃ shop ∈ tables.shops, row.shopId = shop.id ∧ row.source = shop.creator ∧
        row.enqueuedAt = now ∧ row.reason =
          if shop.lat.isNone || shop.lon.isNone then .coordsWereNull
          else if shop.lastValidation.isNone then .neverValidatedBefore
          else .periodicRevalidation) ∧
      ∀ calls, (∀ call ∈ calls, call.OnlyQueues) →
        enqueueForgottenNanos backend now maxAge (backend.after after calls) =
          (.ok 0, backend.after after calls) := by
  have hsound := htables.sound
  let found := tables.needing true (cutoff? now maxAge)
  let rows := tables.newRows (found.map (·.reconciling now))
  have hlength : rows.length = found.length := by
    simp [rows, newRows]
  have hshopIds : rows.map (·.shopId) = found.map Shop.id :=
    tables.newRows_reconciling_shopId found now
  have hqueued := enqueueForgottenNanos_eq tables now maxAge
  rw [← hlength] at hqueued
  refine ⟨rows, _, hqueued, ?_, ?_, ?_, ?_, ?_, ?_⟩
  · rw [enqueue_eq, List.length_map, hlength]
  · intro shop hshop
    rw [← mem_needing_cutoff?_iff hnow htimes hage hshop]
    constructor
    · rintro ⟨row, hrow, hid⟩
      have hrowId : row.shopId ∈ found.map Shop.id := hshopIds ▸ List.mem_map_of_mem hrow
      obtain ⟨other, hother, hotherId⟩ := List.mem_map.mp hrowId
      have hsame := hsound.shop_unique (mem_needing_iff.mp hother).1 hshop (hotherId.trans hid)
      exact hsame ▸ hother
    · intro hfound
      have hid : shop.id ∈ rows.map (·.shopId) := hshopIds ▸ List.mem_map_of_mem hfound
      exact List.mem_map.mp hid
  · have hvalues : rows.map (·.shopId.value) = found.map (·.id.value) := by
      have heq := congrArg (List.map ShopId.value) hshopIds
      rwa [List.map_map, List.map_map] at heq
    rw [hvalues]
    exact hsound.shops_increasing.sublist (List.filter_sublist.map _)
  · rw [hlength, ids_newRows, List.length_map]
  · intro row hrow
    obtain ⟨shop, hshop, hrequest⟩ := mem_newRows_reconciling hrow
    have hreason := congrArg NewTask.reason hrequest
    rw [Shop.reason_reconciling] at hreason
    exact ⟨shop, (mem_needing_iff.mp hshop).1, congrArg NewTask.shopId hrequest,
      congrArg NewTask.source hrequest, congrArg NewTask.enqueuedAt hrequest, hreason⟩
  · intro calls hcalls
    have hagain := tables.enqueueForgottenNanos_again now maxAge hcalls
    rwa [enqueueForgottenNanos_eq] at hagain

/-- There is a user id. -/
theorem userIdCount_pos : 0 < userIdCount := by decide

/-- A shop at a node of the map. -/
def shopAt (id : String) (hid : isElementId id.toList = true) : NewShop where
  locationUid := ⟨.node, id, hid⟩
  creator := ⟨0, userIdCount_pos⟩
  createdAt := .epoch

/-- The instant that is some nanoseconds after the start of 1970, or that start. -/
def instantAt (n : Int) : Instant := (Instant.ofNanos? n).getD .epoch

/-- Shops that lack coordinates, that lack a time, that were validated just too long ago, that were
validated just in time, and that lack coordinates and have a task. -/
def registered : Tables where
  shops :=
    [(shopAt "11" rfl).toShop ⟨1⟩, ((shopAt "12" rfl).withCoordinates 52 13).toShop ⟨2⟩,
      (((shopAt "13" rfl).withCoordinates 52 13).validatedAt (instantAt 499999999999)).toShop ⟨3⟩,
      (((shopAt "14" rfl).withCoordinates 52 13).validatedAt (instantAt 500000000000)).toShop ⟨4⟩,
      (shopAt "15" rfl).toShop ⟨5⟩]
  tasks := [⟨⟨⟨5⟩, ⟨0, userIdCount_pos⟩, .shopMoved, .epoch⟩, ⟨1⟩⟩]
  lastShopId := 5
  lastTaskId := 1

/-- They are registered one after another, and the task is queued at last. -/
theorem reachable_registered : registered.Reachable :=
  Reachable.empty.after_calls
    [⟨_, .insertShop (shopAt "11" rfl)⟩,
      ⟨_, .insertShop ((shopAt "12" rfl).withCoordinates 52 13)⟩,
      ⟨_, .insertShop
        (((shopAt "13" rfl).withCoordinates 52 13).validatedAt (instantAt 499999999999))⟩,
      ⟨_, .insertShop
        (((shopAt "14" rfl).withCoordinates 52 13).validatedAt (instantAt 500000000000))⟩,
      ⟨_, .insertShop (shopAt "15" rfl)⟩,
      ⟨_, .insert ⟨⟨5⟩, ⟨0, userIdCount_pos⟩, .shopMoved, .epoch⟩⟩]

theorem forgotten_queued_once_registered :
    let now := instantAt 1000000000000
    let request : NewTask := ⟨⟨4⟩, ⟨0, userIdCount_pos⟩, .shopMoved, now⟩
    ∃ (rows : List Task) (after : Tables),
      enqueueForgottenNanos backend now (some 500000000000) registered = (.ok rows.length, after) ∧
      rows.map (fun row => (row.id.value, row.shopId.value, row.reason)) =
        [(2, 1, .coordsWereNull), (3, 2, .neverValidatedBefore), (4, 3, .periodicRevalidation)] ∧
      enqueueForgottenNanos backend now (some 500000000000)
          (backend.after after [⟨_, .insertBatch [request]⟩]) =
        (.ok 0, backend.after after [⟨_, .insertBatch [request]⟩]) := by
  intro now request
  have hnow : now.inLeapSecond = false := rfl
  have htimes : ∀ shop ∈ registered.shops, ∀ t, shop.lastValidation = some t →
      t.inLeapSecond = false := by
    have hall : registered.shops.map (·.lastValidation.map Instant.inLeapSecond) =
        [none, none, some false, some false, none] := by cbv
    intro shop hshop t ht
    have hmem := List.mem_map_of_mem (f := (·.lastValidation.map Instant.inLeapSecond)) hshop
    rw [hall, ht] at hmem
    simpa using hmem
  have hage : ∀ age, some (500000000000 : Int) = some age → 0 < age := by simp
  obtain ⟨rows, after, heq, hafter, -, -, -, -, hagain⟩ :=
    forgotten_queued_once reachable_registered hnow htimes hage
  refine ⟨rows, after, heq, ?_, hagain _ (by simp [AnyOperation.OnlyQueues])⟩
  have hview : (enqueueForgottenNanos backend now (some 500000000000) registered).2.tasks.map
      (fun row => (row.id.value, row.shopId.value, row.reason)) =
        [(1, 5, .shopMoved), (2, 1, .coordsWereNull), (3, 2, .neverValidatedBefore),
          (4, 3, .periodicRevalidation)] := by cbv
  rw [heq, hafter, List.map_append] at hview
  exact List.append_cancel_left hview

end Tables

end ShopValidation
