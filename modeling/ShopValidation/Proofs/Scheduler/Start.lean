import ShopValidation.Proofs.Scheduler.Service
import ShopValidation.Scheduler.Rehearsal

/-!
# What a start leaves behind that fails

A start that is refused at its claim changes nothing. One whose reconciliation fails gives back the
claim and leaves the tables alone, but its source stays in place, and testing stays allowed if it
asked for that. So sources may be replaced as soon as one start with testing got past its claim,
whether or not it went on to succeed.
-/

namespace ShopValidation

/-- What a view shows of a store is changed neither by an operation that is not answered, nor by a
search for shops. -/
structure Backend.Atomic {σ τ : Type} (backend : Backend σ) (view : σ → τ) : Prop where
  failed : ∀ {α : Type} (operation : Operation α) (store after : σ) (failure : Failure StoreError),
    backend.perform operation store = (.error failure, after) → view after = view store
  needing : ∀ (excludeQueued : Bool) (staleBefore : Option Instant) (store after : σ)
    (shops : List Shop),
    backend.perform (.needing excludeQueued staleBefore) store = (.ok shops, after) →
      view after = view store

/-- Tables in memory are atomic. -/
theorem Tables.atomic_backend : Tables.backend.Atomic id where
  failed operation store after failure h := by
    simp only [backend] at h
    split at h <;> cases h
    rfl
  needing excludeQueued staleBefore store after shops h := by
    cases h
    rfl

namespace PlannedStore

/-- A planned failure leaves the tables alone. -/
theorem tables_of_next? {α : Type} {operation : Operation α} {store after : PlannedStore}
    {call : StoreCall} {failure : PlannedFailure}
    (h : store.next? operation = some (call, failure, after)) : after.tables = store.tables := by
  simp only [next?, bind, Option.bind_eq_some_iff] at h
  obtain ⟨_, -, _, -, _, -, h⟩ := h
  cases h
  rfl

/-- An operation that the tables refuse leaves them alone. -/
theorem tables_of_answer_failed {α : Type} {operation : Operation α} {store after : PlannedStore}
    {failure : Failure StoreError} (h : answer operation store = (.error failure, after)) :
    after.tables = store.tables := by
  unfold answer at h
  split at h <;> cases h
  rfl

/-- A search for shops leaves the tables alone. -/
theorem tables_of_answer_needing {excludeQueued : Bool} {staleBefore : Option Instant}
    {store after : PlannedStore} {shops : List Shop}
    (h : answer (.needing excludeQueued staleBefore) store = (.ok shops, after)) :
    after.tables = store.tables := by
  cases h
  rfl

/-- The tables behind planned failures are atomic. -/
theorem atomic_backend : backend.Atomic PlannedStore.tables where
  failed operation store after failure h := by
    simp only [backend, perform] at h
    split at h
    · exact tables_of_answer_failed h
    · rename_i hnext
      have htables := tables_of_next? hnext
      cases h
      exact htables
    · rename_i hnext
      have htables := tables_of_next? hnext
      cases h
      exact htables
    · rename_i hnext
      split at h
      · cases h
      · exact (tables_of_answer_failed h).trans (tables_of_next? hnext)
  needing excludeQueued staleBefore store after shops h := by
    simp only [backend, perform] at h
    split at h
    · exact tables_of_answer_needing h
    · cases h
    · cases h
    · rename_i hnext
      exact (tables_of_answer_needing h).trans (tables_of_next? hnext)

end PlannedStore

section

variable {σ τ : Type} {backend : Backend σ} {view : σ → τ}

/-- A reconciliation that fails leaves the tables alone. -/
theorem enqueueForgotten_failed (hatomic : backend.Atomic view) {now : Instant} {maxAge : Option Int}
    {store after : σ} {failure : Failure StoreError}
    (h : enqueueForgotten backend now maxAge store = (.error failure, after)) :
    view after = view store := by
  unfold enqueueForgotten enqueueForgottenNanos at h
  split at h
  · rename_i hneeding
    cases h
    exact hatomic.failed _ _ _ _ hneeding
  · cases h
  · rename_i shops found _ hneeding
    rw [← hatomic.needing _ _ _ _ _ hneeding]
    cases hinsert : backend.perform (.insertBatch (shops.map (·.reconciling now))) found with
    | mk ending inserted =>
      rw [hinsert] at h
      cases ending with
      | error failure =>
        cases h
        exact hatomic.failed _ _ _ _ hinsert
      | ok ids => cases h

end

namespace Worker

variable {κ : Type} {w : Worker κ}

/-- A claim that is given back at once leaves no trace. -/
theorem cancelStart_reserved (h : w.Fresh) :
    ({ w with lifecycle := .running, starters := w.starters ++ [.reserved] } : Worker κ).cancelStart
      w.starters.length = some w := by
  obtain ⟨hlife, -, hstarters, hpending, hcallbacks⟩ := h
  obtain ⟨name, lifecycle, wakePending, idleCallbacks, stats, policy, clock, phase, starters⟩ := w
  cases hlife
  cases hstarters
  cases hpending
  cases hcallbacks
  rfl

/-- A launch keeps starts in order. -/
theorem Orderly.launch (h : w.Orderly) (i : Nat) : (w.launch i).2.Orderly := by
  have hcleared : ((w.clearStart i).getD w).Orderly := by
    cases hclear : w.clearStart i with
    | none => exact h
    | some cleared =>
      have hstep : w.step (.clear i) = some cleared := hclear
      exact h.step (.of_step hstep)
  unfold Worker.launch
  dsimp only
  cases hlaunch : (((w.clearStart i).getD w).spawn i).bind (·.storeHandle i) with
  | none => exact hcleared
  | some launched =>
    obtain ⟨spawned, hspawn, hstore⟩ := Option.bind_eq_some_iff.mp hlaunch
    have hfirst : ((w.clearStart i).getD w).step (.spawn i) = some spawned := hspawn
    have hsecond : spawned.step (.storeHandle i) = some launched := hstore
    exact (hcleared.step (.of_step hfirst)).step (.of_step hsecond)

/-- The claim on a worker that runs may be used. -/
theorem clearStart_of_running {i : Nat} (hstarter : w.starters[i]? = some .reserved)
    (hrunning : w.lifecycle = .running) :
    w.clearStart i = some { w with starters := w.starters.set i .cleared } := by
  simp [clearStart, hstarter, stopRequested, hrunning]

/-- The launch of a claimed worker that runs succeeds. -/
theorem launch_eq_ok {i : Nat} (hstarter : w.starters[i]? = some .reserved)
    (hrunning : w.lifecycle = .running) : (w.launch i).1 = .ok () := by
  have hlt := (List.getElem?_eq_some_iff.mp hstarter).1
  have hclear := clearStart_of_running hstarter hrunning
  simp [launch, hclear, spawn, storeHandle, hlt]

end Worker

namespace Scheduler

variable {σ τ κ : Type} {backend : Backend σ} {view : σ → τ} {s after : Scheduler σ κ}
  {source : Source} {testing : Bool} {failure : Failure ValidationError}

/-- The source in place. -/
def source? (s : Scheduler σ κ) : Option Source := s.installed.bind (s.sources[·]?)

/-- A source that is put in place is in place. -/
@[simp] theorem source?_install (s : Scheduler σ κ) (source : Source) :
    (s.install source).source? = some source := by
  simp [source?, install]

/-- The launch of a claimed worker that runs succeeds. -/
theorem launch_eq_ok {i : Nat} (hstarter : s.worker.starters[i]? = some .reserved)
    (hrunning : s.worker.lifecycle = .running) : (s.launch i).1 = .ok () := by
  simp only [launch, Worker.launch_eq_ok hstarter hrunning]
  rfl

/-- The scheduler with its worker claimed by a start, and the source of the start in place. -/
def claimed (s : Scheduler σ κ) (source : Source) (testing : Bool) : Scheduler σ κ :=
  { s.prepare source testing with
    worker := { s.worker with
      lifecycle := .running
      starters := s.worker.starters ++ [.reserved] } }

/-- A scheduler that is claimed queues the shops it would queue unclaimed. -/
theorem reconcile_claimed (source : Source) (testing : Bool) {store : σ}
    {ending : Ending StoreError Nat}
    (h : enqueueForgotten backend s.worker.clock.now s.maxAge s.store = (ending, store)) :
    (s.claimed source testing).reconcile backend =
      (ending.mapError (·.map .store), { s.claimed source testing with store := store }) := by
  have hsame : enqueueForgotten backend (s.claimed source testing).worker.clock.now
      (s.claimed source testing).maxAge (s.claimed source testing).store = (ending, store) := h
  rw [reconcile, hsame]

/-- A start that may not claim the worker is refused. -/
theorem start_of_reserve_error (backend : Backend σ) (source : Source) (testing : Bool)
    {error : WorkerError} (h : s.worker.reserve = .error error) :
    s.start backend source testing = (.error (.refused (.worker error)), s) := by
  have hclaim : s.claim source testing = .error error := by
    rw [claim_eq, h]
    rfl
  rw [start, hclaim]

/-- A start is refused at its claim, or fails to queue the forgotten shops, or goes on to launch. -/
theorem start_cases (backend : Backend σ) (source : Source) (testing : Bool) (s : Scheduler σ κ) :
    (s.worker.lifecycle ≠ .notStarted ∧
      ∃ error, s.start backend source testing = (.error (.refused (.worker error)), s)) ∨
    (s.worker.lifecycle = .notStarted ∧ ∃ failure store,
      enqueueForgotten backend s.worker.clock.now s.maxAge s.store = (.error failure, store) ∧
      s.start backend source testing = (.error (failure.map .store),
        { s.claimed source testing with store := store }.abandon s.worker.starters.length)) ∨
    (s.worker.lifecycle = .notStarted ∧ ∃ count store,
      enqueueForgotten backend s.worker.clock.now s.maxAge s.store = (.ok count, store) ∧
      s.start backend source testing =
        { s.claimed source testing with store := store }.launch s.worker.starters.length) := by
  cases hlife : s.worker.lifecycle with
  | notStarted =>
    have hclaim : s.claim source testing = .ok (s.worker.starters.length, s.claimed source testing) := by
      rw [claim_eq, Worker.reserve, hlife]
      rfl
    cases hforgotten : enqueueForgotten backend s.worker.clock.now s.maxAge s.store with
    | mk ending store =>
      have hreconcile := reconcile_claimed source testing hforgotten
      cases ending with
      | error failure =>
        refine .inr (.inl ⟨rfl, failure, store, rfl, ?_⟩)
        simp only [start, hclaim, hreconcile]
        rfl
      | ok count =>
        refine .inr (.inr ⟨rfl, count, store, rfl, ?_⟩)
        simp only [start, hclaim, hreconcile]
        rfl
  | running =>
    have hrefused : s.worker.reserve = .error .alreadyStarted := by simp [Worker.reserve, hlife]
    exact .inl ⟨nofun, _, start_of_reserve_error backend source testing hrefused⟩
  | stopped =>
    have hrefused : s.worker.reserve = .error .stopped := by simp [Worker.reserve, hlife]
    exact .inl ⟨nofun, _, start_of_reserve_error backend source testing hrefused⟩

/-- A start that fails was refused and changed nothing, or its reconciliation failed: then the worker
and the tables are as before, and the source and the permission are those of the start. -/
theorem start_failed (hatomic : backend.Atomic view) (horderly : s.worker.Orderly)
    (h : s.start backend source testing = (.error failure, after)) :
    s.worker.lifecycle ≠ .notStarted ∧ after = s ∨
    s.worker.lifecycle = .notStarted ∧ view after.store = view s.store ∧
      after = { s.prepare source testing with store := after.store } := by
  rcases s.start_cases backend source testing with
    ⟨hother, error, hstart⟩ | ⟨hnew, reason, store, hforgotten, hstart⟩ |
    ⟨hnew, count, store, hforgotten, hstart⟩
  · rw [hstart] at h
    cases h
    exact .inl ⟨hother, rfl⟩
  · have hworker : (s.claimed source testing).worker.cancelStart s.worker.starters.length =
        some s.worker :=
      Worker.cancelStart_reserved (horderly.fresh_of_notStarted hnew)
    rw [hstart] at h
    simp only [abandon, hworker, Option.getD_some] at h
    cases h
    exact .inr ⟨hnew, enqueueForgotten_failed hatomic hforgotten, rfl⟩
  · have hending := congrArg Prod.fst (hstart.symm.trans h)
    rw [launch_eq_ok (by simp [claimed]) rfl] at hending
    cases hending

end Scheduler

/-- What is done with a scheduler, one call after another. What happens to its worker comes as events,
and others may leave the store in any state. -/
inductive Call (σ κ : Type) where
  | start (source : Source) (testing : Bool)
  | replace (source : Source)
  | schedule (requests : List NewTask)
  | processBatch
  | event (event : Event κ)
  | change (store : σ)

namespace Scheduler

variable {σ τ κ : Type} {backend : Backend σ} {view : σ → τ} {s s₀ after : Scheduler σ κ}

/-- The scheduler after a call. -/
def perform (backend : Backend σ) (s : Scheduler σ κ) : Call σ κ → Scheduler σ κ
  | .start source testing => (s.start backend source testing).2
  | .replace source => (s.replaceSource source).toOption.getD s
  | .schedule requests => (s.schedule backend requests).2
  | .processBatch => (s.processBatch backend).2
  | .event event => { s with worker := (s.worker.step event).getD s.worker }
  | .change store => { s with store := store }

/-- The scheduler after calls. -/
def performAll (backend : Backend σ) (s : Scheduler σ κ) (calls : List (Call σ κ)) : Scheduler σ κ :=
  calls.foldl (perform backend) s

/-- Whether a call is a start with testing that gets past its claim. -/
def grants (s : Scheduler σ κ) : Call σ κ → Bool
  | .start _ testing => testing && s.worker.lifecycle = .notStarted
  | _ => false

/-- A batch changes neither the worker nor what is allowed. -/
theorem stepsBatch_frame (watch : Stage → σ → σ) (n : Nat) (s : Scheduler σ κ) (batch : Batch) :
    (s.stepsBatch backend watch n batch).1.worker = s.worker ∧
      (s.stepsBatch backend watch n batch).1.testing = s.testing := by
  induction n generalizing s batch with
  | zero => exact ⟨rfl, rfl⟩
  | succ n ih =>
    rw [stepsBatch]
    have hone : ∀ t : Scheduler σ κ, (t.stepBatch backend batch).1.worker = t.worker ∧
        (t.stepBatch backend batch).1.testing = t.testing := by
      intro t
      unfold stepBatch
      split <;> exact ⟨rfl, rfl⟩
    obtain ⟨hworker, htesting⟩ := hone { s with store := watch batch.stage s.store }
    exact ⟨(ih _ _).1.trans hworker, (ih _ _).2.trans htesting⟩

/-- A whole batch changes neither the worker nor what is allowed. -/
theorem processBatch_frame (s : Scheduler σ κ) :
    (s.processBatch backend).2.worker = s.worker ∧ (s.processBatch backend).2.testing = s.testing := by
  unfold processBatch
  cases s.beginBatch with
  | error error => exact ⟨rfl, rfl⟩
  | ok batch => exact stepsBatch_frame _ _ s batch

/-- Queueing requests wakes the worker at most, and changes nothing that is allowed. -/
theorem schedule_frame (requests : List NewTask) (s : Scheduler σ κ) :
    ((s.schedule backend requests).2.worker = s.worker ∨
      (s.schedule backend requests).2.worker = s.worker.afterCall s.worker.wakeUp) ∧
      (s.schedule backend requests).2.testing = s.testing := by
  unfold schedule
  split
  · exact ⟨.inl rfl, rfl⟩
  · cases hinsert : backend.perform (.insertBatch requests) s.store with
    | mk ending store =>
      simp only [enqueue, hinsert]
      cases ending with
      | error failure => exact ⟨.inl rfl, rfl⟩
      | ok ids => exact ⟨.inr rfl, rfl⟩

/-- Testing is allowed after a call if it was before, or the call is a start with testing that got
past its claim. -/
theorem testing_perform (s : Scheduler σ κ) (call : Call σ κ) :
    (s.perform backend call).testing = (s.testing || s.grants call) := by
  cases call with
  | start source testing =>
    rcases s.start_cases backend source testing with
      ⟨hother, error, hstart⟩ | ⟨hnew, reason, store, -, hstart⟩ | ⟨hnew, count, store, -, hstart⟩
    · simp [perform, grants, hstart, hother]
    · simp [perform, grants, hstart, hnew, abandon, claimed, prepare, install]
    · simp [perform, grants, hstart, hnew, launch, claimed, prepare, install]
  | replace source =>
    cases htesting : s.testing <;>
      simp [perform, grants, replaceSource, htesting, install, Except.toOption]
  | schedule requests => simp [perform, grants, (schedule_frame requests s).2]
  | processBatch => simp [perform, grants, (processBatch_frame s).2]
  | event event => simp [perform, grants]
  | change store => simp [perform, grants]

/-- Calls keep starts in order. -/
theorem orderly_perform (h : s.worker.Orderly) (call : Call σ κ) :
    (s.perform backend call).worker.Orderly := by
  cases call with
  | start source testing =>
    rw [perform]
    rcases s.start_cases backend source testing with
      ⟨hother, error, hstart⟩ | ⟨hnew, reason, store, -, hstart⟩ | ⟨hnew, count, store, -, hstart⟩
    · rw [hstart]
      exact h
    · rw [hstart]
      have hcancel := Worker.cancelStart_reserved (h.fresh_of_notStarted hnew)
      simpa only [abandon, claimed, hcancel, Option.getD_some] using h
    · rw [hstart]
      exact (h.step (.reserve hnew)).launch _
  | replace source =>
    rw [perform, replaceSource]
    split <;> exact h
  | schedule requests =>
    rw [perform]
    rcases (schedule_frame requests s).1 with hworker | hworker
    · rwa [hworker]
    · have hwake : Worker.Step s.worker .wakeUp _ := .of_step rfl
      rw [hworker]
      exact h.step hwake
  | processBatch =>
    rw [perform, (processBatch_frame s).1]
    exact h
  | event event =>
    rw [perform]
    cases hstep : s.worker.step event with
    | none => exact h
    | some worker => exact h.step (.of_step hstep)
  | change store => exact h

/-- Any number of calls keep starts in order. -/
theorem orderly_performAll (h : s.worker.Orderly) (calls : List (Call σ κ)) :
    (s.performAll backend calls).worker.Orderly := by
  induction calls generalizing s with
  | nil => exact h
  | cons call calls ih => exact ih (orderly_perform h call)

/-- Testing is allowed after calls if it was before, or one of them is a start with testing that got
past its claim. -/
theorem testing_performAll (s : Scheduler σ κ) (calls : List (Call σ κ)) :
    (s.performAll backend calls).testing = true ↔ s.testing = true ∨
      ∃ earlier call later, calls = earlier ++ call :: later ∧
        (s.performAll backend earlier).grants call = true := by
  induction calls generalizing s with
  | nil => simp [performAll]
  | cons call calls ih =>
    have hcons : s.performAll backend (call :: calls) =
        (s.perform backend call).performAll backend calls := rfl
    rw [hcons, ih, testing_perform, Bool.or_eq_true, or_assoc]
    apply or_congr_right
    constructor
    · rintro (hgrants | ⟨earlier, granting, later, rfl, hgrants⟩)
      · exact ⟨[], call, calls, rfl, hgrants⟩
      · exact ⟨call :: earlier, granting, later, rfl, hgrants⟩
    · rintro ⟨earlier, granting, later, hcalls, hgrants⟩
      cases earlier with
      | nil =>
        obtain ⟨rfl, rfl⟩ := List.cons.inj hcalls
        exact .inl hgrants
      | cons first earlier =>
        obtain ⟨rfl, rfl⟩ := List.cons.inj hcalls
        exact .inr ⟨earlier, granting, later, rfl, hgrants⟩

/-- A call that grants is a start with testing on a new worker. -/
theorem grants_iff {call : Call σ κ} :
    s.grants call = true ↔
      ∃ source, call = .start source true ∧ s.worker.lifecycle = .notStarted := by
  cases call with
  | start source testing => cases testing <;> simp [grants]
  | _ => simp [grants]

/-- A source may not be replaced exactly where testing is not allowed. -/
theorem replaceSource_eq_notTesting_iff {source : Source} :
    s.replaceSource source = .error .notTesting ↔ s.testing = false := by
  unfold replaceSource
  cases s.testing <;> simp

/-- A start that fails leaves the worker and the tables as they were, and the source and the permission
exactly where it was refused at its claim or asked for nothing new. -/
theorem start_failed_keeps_iff (hatomic : backend.Atomic view) (horderly : s.worker.Orderly)
    {source : Source} {testing : Bool} {failure : Failure ValidationError}
    (h : s.start backend source testing = (.error failure, after)) :
    after.worker = s.worker ∧ view after.store = view s.store ∧
      (after.source? = s.source? ∧ after.testing = s.testing ↔
        s.worker.lifecycle ≠ .notStarted ∨
          s.source? = some source ∧ (testing = true → s.testing = true)) := by
  rcases start_failed hatomic horderly h with ⟨hother, rfl⟩ | ⟨hnew, hview, hafter⟩
  · exact ⟨rfl, rfl, iff_of_true ⟨rfl, rfl⟩ (.inl hother)⟩
  · have hworker : after.worker = s.worker := by
      rw [hafter]
      rfl
    have hsource : after.source? = some source := by
      rw [hafter]
      exact source?_install _ source
    have htesting : after.testing = (s.testing || testing) := by
      rw [hafter]
      rfl
    refine ⟨hworker, hview, ?_⟩
    rw [hsource, htesting, or_iff_right (not_not_intro hnew), eq_comm (a := some source)]
    apply and_congr_right
    intro _
    cases s.testing <;> cases testing <;> simp

/-- After any calls, a source may not be replaced exactly where testing was not allowed before and no
start with testing got past its claim. -/
theorem replaceSource_performAll_iff {calls : List (Call σ κ)} {source : Source} :
    (s.performAll backend calls).replaceSource source = .error .notTesting ↔
      s.testing = false ∧ ∀ earlier later started, calls = earlier ++ .start started true :: later →
        (s.performAll backend earlier).worker.lifecycle ≠ .notStarted := by
  rw [replaceSource_eq_notTesting_iff, ← Bool.not_eq_true, testing_performAll, not_or,
    Bool.not_eq_true]
  apply and_congr_right
  intro _
  constructor
  · intro hnone earlier later started hsplit hnew
    exact hnone ⟨earlier, _, later, hsplit, grants_iff.mpr ⟨started, rfl, hnew⟩⟩
  · rintro hall ⟨earlier, call, later, hsplit, hgrants⟩
    obtain ⟨started, rfl, hnew⟩ := grants_iff.mp hgrants
    exact hall earlier later started hsplit hnew

/-- After any calls, a start that fails leaves the worker and the tables as they were. It leaves the
source and the permission to replace it as they were exactly where it was refused at its claim, or
asked for nothing new. And a source may not be replaced exactly where testing is not configured and
no start with testing got past its claim. -/
theorem start_failed_iff {config : ValidationConfig} {clock : ManualClock} {store : σ}
    {calls : List (Call σ κ)} (hatomic : backend.Atomic view)
    (hconfig : ofConfig config clock store = .ok s₀) (hcalls : s₀.performAll backend calls = s) :
    (∀ source testing failure after, s.start backend source testing = (.error failure, after) →
      after.worker = s.worker ∧ view after.store = view s.store ∧
        (after.source? = s.source? ∧ after.testing = s.testing ↔
          s.worker.lifecycle ≠ .notStarted ∨
            s.source? = some source ∧ (testing = true → s.testing = true))) ∧
      ∀ source, s.replaceSource source = .error .notTesting ↔
        config.testing = false ∧
          ∀ earlier later started, calls = earlier ++ .start started true :: later →
            (s₀.performAll backend earlier).worker.lifecycle ≠ .notStarted := by
  obtain ⟨hfresh, -, hconfigured⟩ := ofConfig_eq_ok hconfig
  have horderly : s.worker.Orderly := hcalls ▸ orderly_performAll hfresh.orderly calls
  constructor
  · intro source testing failure after hstart
    exact start_failed_keeps_iff hatomic horderly hstart
  · intro source
    rw [← hcalls, replaceSource_performAll_iff, hconfigured]

/-- A scheduler on empty tables whose first search for shops is planned to fail. -/
def failingOnce : Scheduler PlannedStore Unit where
  worker := Service.unconfigured.scheduler.worker
  store := { failures := [(.needing, .refuse "connection lost")] }
  testing := false
  batchMax := 20
  maxAge := none

theorem start_failed_iff_failingOnce :
    ∃ failure after,
      failingOnce.start PlannedStore.backend (.failing "closed") true = (.error failure, after) ∧
      after.worker = failingOnce.worker ∧ after.store.tables = failingOnce.store.tables ∧
      (after.source? = failingOnce.source? ∧ after.testing = failingOnce.testing ↔
        failingOnce.worker.lifecycle ≠ .notStarted ∨
          failingOnce.source? = some (.failing "closed") ∧ (true = true → failingOnce.testing = true)) := by
  have hconfig : ofConfig {} { now := .epoch } failingOnce.store = .ok failingOnce := rfl
  have hcalls : failingOnce.performAll PlannedStore.backend [] = failingOnce := rfl
  obtain ⟨hfailed, -⟩ := start_failed_iff PlannedStore.atomic_backend hconfig hcalls
  exact ⟨_, _, rfl, hfailed (.failing "closed") true _ _ rfl⟩

theorem not_start_failed_unchanged :
    (¬∀ (s after : Scheduler PlannedStore Unit) (source : Source) (testing : Bool)
        (failure : Failure ValidationError),
        s.start PlannedStore.backend source testing = (.error failure, after) →
        after.source? = s.source? ∧ after.testing = s.testing) ∧
      ∃ after,
        (failingOnce.performAll PlannedStore.backend [.start (.failing "closed") true]).start
          PlannedStore.backend (.failing "closed") false = (.ok (), after) ∧
        after.replaceSource (.failing "closed") ≠ .error .notTesting := by
  constructor
  · intro h
    obtain ⟨-, htesting⟩ := h failingOnce _ (.failing "closed") true _ rfl
    exact absurd htesting (by decide)
  · exact ⟨_, rfl, nofun⟩

end Scheduler

end ShopValidation
