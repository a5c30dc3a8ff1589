import ShopValidation.Proofs.Store.Tables
import ShopValidation.Proofs.Worker.LoopStep
import ShopValidation.Scheduler.State

/-!
# Queueing requests, all or none

Requests are queued if the shops of all of them are there, and otherwise the first shop that is missing
is reported and nothing happens. Since their shops stay where they are while rows are added, queueing
them row by row cannot be refused half way. The rows are in the queue before the worker is woken, and
a worker that cannot be woken makes no difference to the answer.
-/

namespace ShopValidation

namespace Tables

variable {tables : Tables} {requests : List NewTask}

/-- Queue requests one after another, as long as none is refused. -/
def insertEach (tables : Tables) : List NewTask → Except StoreError (List TaskId × Tables)
  | [] => .ok ([], tables)
  | request :: rest =>
    match tables.insert request with
    | .error error => .error error
    | .ok (id, after) => (after.insertEach rest).map fun (ids, last) => (id :: ids, last)

/-- Where the shops of all requests are there, none is refused on the way. -/
theorem insertEach_eq_ok (hshops : ∀ request ∈ requests, tables.hasShop request.shopId = true) :
    tables.insertEach requests = .ok (tables.enqueue requests) := by
  induction requests generalizing tables with
  | nil => simp [insertEach, enqueue]
  | cons request rest ih =>
    obtain ⟨hshop, hrest⟩ := List.forall_mem_cons.mp hshops
    have hlater : ∀ other ∈ rest, (tables.enqueue [request]).2.hasShop other.shopId = true := hrest
    rw [enqueue_cons, insertEach, insert, if_pos hshop]
    simp only [ih hlater]
    rfl

/-- Requests are queued, or the first one whose shop is missing is reported. -/
theorem insertBatch_cases (tables : Tables) (requests : List NewTask) :
    (∀ request ∈ requests, tables.hasShop request.shopId = true) ∧
      tables.insertBatch requests = .ok (tables.enqueue requests) ∨
    ∃ before request later, requests = before ++ request :: later ∧
      (∀ other ∈ before, tables.hasShop other.shopId = true) ∧
      tables.hasShop request.shopId = false ∧
      tables.insertBatch requests = .error (.shopNotFound request.shopId) := by
  unfold insertBatch
  cases hmissing : tables.missingShop? (requests.map NewTask.shopId) with
  | none => exact .inl ⟨List.forall_mem_map.mp (missingShop?_eq_none_iff.mp hmissing), rfl⟩
  | some id =>
    right
    rw [missingShop?, List.find?_map] at hmissing
    obtain ⟨request, hfind, rfl⟩ := Option.map_eq_some_iff.mp hmissing
    obtain ⟨hlost, before, later, rfl, hbefore⟩ := List.find?_eq_some_iff_append.mp hfind
    exact ⟨before, request, later, rfl, by simpa using hbefore, by simpa using hlost, rfl⟩

end Tables

namespace Scheduler

variable {κ : Type}

variable {s : Scheduler Tables κ} {requests : List NewTask}

/-- The scheduler with the rows of requests in the queue. -/
def withRows (s : Scheduler Tables κ) (requests : List NewTask) : Scheduler Tables κ :=
  { s with store := (s.store.enqueue requests).2 }

/-- Requests that the store accepts are queued. -/
theorem enqueue_eq_ok (hinsert : s.store.insertBatch requests = .ok (s.store.enqueue requests)) :
    s.enqueue Tables.backend requests =
      (.ok ((s.store.newRows requests).map Task.id), s.withRows requests) := by
  simp only [enqueue, Tables.backend, Tables.apply, hinsert]
  rfl

/-- Requests that the store refuses are refused. -/
theorem enqueue_eq_error {error : StoreError} (hinsert : s.store.insertBatch requests = .error error) :
    s.enqueue Tables.backend requests = (.error (.refused (.store error)), s) := by
  simp only [enqueue, Tables.backend, Tables.apply, hinsert]
  rfl

/-- Once requests are queued, a worker that runs is woken, and any other is left alone. -/
theorem schedule_eq_ok (hinsert : s.store.insertBatch requests = .ok (s.store.enqueue requests)) :
    s.schedule Tables.backend requests =
      (.ok ((s.store.newRows requests).map Task.id), { s.withRows requests with
        worker :=
          if requests ≠ [] ∧ s.worker.lifecycle = .running then { s.worker with wakePending := true }
          else s.worker }) := by
  cases requests with
  | nil => simp [schedule, withRows, Tables.enqueue, Tables.newRows]
  | cons request rest =>
    simp only [schedule, enqueue_eq_ok hinsert, announce, withRows, Worker.afterCall_wakeUp,
      List.isEmpty_cons, ne_eq, reduceCtorEq, not_false_eq_true, true_and]
    rfl

/-- Requests that the store refuses leave the worker alone. -/
theorem schedule_eq_error {error : StoreError} (hsome : requests ≠ [])
    (hinsert : s.store.insertBatch requests = .error error) :
    s.schedule Tables.backend requests = (.error (.refused (.store error)), s) := by
  have hcons : requests.isEmpty = false := List.isEmpty_eq_false_iff.mpr hsome
  rw [schedule, hcons, enqueue_eq_error hinsert]
  rfl

/-- Requests are queued exactly where the shops of all are there, under the ids that follow the last
one, in one go as row by row. Then a worker that runs is woken, after the rows are in the queue, and
any other is left as it is. Otherwise the first shop that is missing is reported, and nothing has
happened. -/
theorem schedule_all_or_none (s : Scheduler Tables κ) (requests : List NewTask) :
    ((∃ ids, (s.schedule Tables.backend requests).1 = .ok ids) ↔
      ∀ request ∈ requests, ∃ shop ∈ s.store.shops, shop.id = request.shopId) ∧
    ((∃ ids queued,
      ids = ((List.range' 1 requests.length).map fun i : Nat => ⟨s.store.lastTaskId + i⟩) ∧
      queued = { s with
        store := { s.store with
          tasks := s.store.tasks ++ requests.zipWith NewTask.toTask ids
          lastTaskId := s.store.lastTaskId + requests.length } } ∧
      s.store.insertEach requests = .ok (ids, queued.store) ∧
      s.enqueue Tables.backend requests = (.ok ids, queued) ∧
      s.schedule Tables.backend requests = (.ok ids, { queued with
        worker :=
          if requests ≠ [] ∧ s.worker.lifecycle = .running then { s.worker with wakePending := true }
          else s.worker })) ∨
    ∃ before request later, requests = before ++ request :: later ∧
      (∀ other ∈ before, ∃ shop ∈ s.store.shops, shop.id = other.shopId) ∧
      (∀ shop ∈ s.store.shops, shop.id ≠ request.shopId) ∧
      s.schedule Tables.backend requests =
        (.error (.refused (.store (.shopNotFound request.shopId))), s)) := by
  have hthere (id : ShopId) : s.store.hasShop id = true ↔ ∃ shop ∈ s.store.shops, shop.id = id :=
    Tables.hasShop_iff
  simp only [← hthere]
  rcases s.store.insertBatch_cases requests with
    ⟨hshops, hinsert⟩ | ⟨before, request, later, rfl, hbefore, hlost, hinsert⟩
  · have hscheduled := schedule_eq_ok hinsert
    refine ⟨iff_of_true ⟨_, congrArg Prod.fst hscheduled⟩ hshops, .inl
      ⟨(s.store.newRows requests).map Task.id, s.withRows requests, s.store.ids_newRows requests, ?_,
        Tables.insertEach_eq_ok hshops, enqueue_eq_ok hinsert, hscheduled⟩⟩
    rw [Tables.zipWith_toTask_ids]
    rfl
  · have hrefused := schedule_eq_error (by simp) hinsert
    refine ⟨iff_of_false ?_ ?_, .inr ⟨before, request, later, rfl, hbefore, ?_, hrefused⟩⟩
    · rintro ⟨ids, hids⟩
      rw [hrefused] at hids
      cases hids
    · intro hshops
      have hfound := hshops request (by simp)
      rw [hlost] at hfound
      cases hfound
    · intro shop hshop hid
      rw [(hthere request.shopId).mpr ⟨shop, hshop, hid⟩] at hlost
      cases hlost

end Scheduler

end ShopValidation
