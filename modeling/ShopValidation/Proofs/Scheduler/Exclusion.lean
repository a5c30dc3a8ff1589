import ShopValidation.Proofs.Scheduler.WholeCalls
import ShopValidation.Proofs.Worker.IdleCallback

/-!
# One start, and a stop for good

However starts, launches, claims that are given back and stops follow each other, one claim at most
is open at a time, and one thread at most is ever created, so that one start at most succeeds. A
worker that is stopped stays so and refuses every caller. A start of the scheduler that is refused at
its claim does nothing at all.
-/

namespace ShopValidation

variable {κ : Type}

/-- Whether an event creates the thread of the loop. -/
def Event.createsThread : Event κ → Bool
  | .spawn _ => true
  | _ => false

/-- Whether an event is the end of a start that succeeds. -/
def Event.completesStart : Event κ → Bool
  | .storeHandle _ => true
  | _ => false

namespace Worker

variable {w v v' : Worker κ} {past : List (Event κ)} {event : Event κ}

/-- What the events so far say about starts: a thread was created once at most, and not while there is
none; and each start that has succeeded, or is about to, has created one. -/
structure Tallied (past : List (Event κ)) (v : Worker κ) : Prop where
  orderly : v.Orderly
  absent : v.phase = .absent → past.countP Event.createsThread = 0
  once : past.countP Event.createsThread ≤ 1
  completed : past.countP Event.completesStart + v.starters.count .spawned ≤
    past.countP Event.createsThread

/-- An event that has no part in launches keeps the tally. -/
theorem Tallied.frame (h : Tallied past v) (horderly : v'.Orderly)
    (hthread : event.createsThread = false) (hstart : event.completesStart = false)
    (habsent : v'.phase = .absent → v.phase = .absent)
    (hspawned : v'.starters.count .spawned ≤ v.starters.count .spawned) :
    Tallied (past ++ [event]) v' := by
  have hthreads : (past ++ [event]).countP Event.createsThread = past.countP Event.createsThread := by
    simp [hthread]
  have hstarts : (past ++ [event]).countP Event.completesStart = past.countP Event.completesStart := by
    simp [hstart]
  have hcompleted := h.completed
  constructor
  · exact horderly
  · rw [hthreads]
    exact fun hnone => h.absent (habsent hnone)
  · rw [hthreads]
    exact h.once
  · rw [hthreads, hstarts]
    omega

/-- Every event keeps the tally. -/
theorem Tallied.step (h : Tallied past v) (hstep : Step v event v') :
    Tallied (past ++ [event]) v' := by
  have horderly := h.orderly.step hstep
  have hcompleted := h.completed
  cases hstep with
  | spawn i hstarter =>
    obtain ⟨rfl, honly⟩ := h.orderly.oneStart.starters_eq hstarter
    have hnone := h.absent (h.orderly.oneStart.phase_eq_absent hstarter nofun)
    constructor
    · exact horderly
    · exact nofun
    · simp [Event.createsThread, hnone]
    · simp only [hnone] at hcompleted
      simp [Event.createsThread, Event.completesStart, honly]
      omega
  | storeHandle i hstarter =>
    obtain ⟨rfl, honly⟩ := h.orderly.oneStart.starters_eq hstarter
    constructor
    · exact horderly
    · simpa [Event.createsThread] using h.absent
    · simpa [Event.createsThread] using h.once
    · simpa [Event.createsThread, Event.completesStart, honly] using hcompleted
  | reserve hnew => exact h.frame horderly rfl rfl id (by simp)
  | clear i hstarter hlife =>
    obtain ⟨rfl, honly⟩ := h.orderly.oneStart.starters_eq hstarter
    exact h.frame horderly rfl rfl id (by simp [honly])
  | cancel i hstarter | clearRefused i hstarter hlife | failSpawn i hstarter =>
    exact h.frame horderly rfl rfl id ((List.eraseIdx_sublist _ _).count_le _)
  | loop event v' hloop =>
    have hthread : event.createsThread = false := by cases hloop <;> rfl
    have hstart : event.completesStart = false := by cases hloop <;> rfl
    have hstarters : v'.starters.count .spawned ≤ v.starters.count .spawned :=
      Nat.le_of_eq (congrArg _ hloop.starters_eq)
    exact h.frame horderly hthread hstart (fun hnone => absurd hnone hloop.phase_ne_absent_after)
      hstarters
  | _ => exact h.frame horderly rfl rfl id (Nat.le_refl _)

/-- The tally holds after every run of a fresh worker. -/
theorem Fresh.tallied_run {events : List (Event κ)} (h : w.Fresh) (hrun : w.run events = some v) :
    Tallied events v := by
  apply run_induct hrun
  · exact ⟨h.orderly, fun _ => rfl, Nat.zero_le _, by simp [h.starters]⟩
  · intro past v event v' _ hv hstep
    exact hv.step hstep

/-- No two starts are in progress at a time. -/
theorem OneStart.length_starters_le (h : w.OneStart) : w.starters.length ≤ 1 := by
  rcases h with hnone | ⟨starter, honly, -⟩
  · simp [hnone]
  · simp [honly]

/-- A stopped worker refuses every claim, wake-up and callback. -/
theorem refused_of_stopped (h : w.lifecycle = .stopped) :
    w.reserve = .error .stopped ∧ w.wakeUp = .error .stopped ∧
      ∀ callback, w.whenIdle callback = .error .stopped := by
  simp [reserve, wakeUp, whenIdle, notRunning?, h]

/-- A start of a scheduler that succeeds takes its worker through the four events of a start. -/
theorem run_of_start_ok {σ : Type} {backend : Backend σ} {s after : Scheduler σ κ} {source : Source}
    {testing : Bool} (h : s.worker.Orderly) (hstart : s.start backend source testing = (.ok (), after)) :
    s.worker.run [.reserve, .clear 0, .spawn 0, .storeHandle 0] = some after.worker := by
  rcases s.start_cases backend source testing with
    ⟨-, error, hrefused⟩ | ⟨-, failure, store, -, hfailed⟩ | ⟨hnew, count, store, -, hlaunched⟩
  · cases hrefused.symm.trans hstart
  · cases hfailed.symm.trans hstart
  · have hafter := congrArg Prod.snd (hlaunched.symm.trans hstart)
    have hworker := congrArg Scheduler.worker hafter
    have hnone : s.worker.starters.length = 0 := by simp [(h.fresh_of_notStarted hnew).starters]
    have hreserve : s.worker.step .reserve =
        some { s.worker with
          lifecycle := .running
          starters := s.worker.starters ++ [.reserved] } := by
      rw [step, afterCall_reserve, if_pos hnew]
    rw [run_cons, hreserve, Option.bind_some, ← hworker, hnone]
    exact run_launch (by simp [← hnone]) rfl

/-- After every run of a fresh worker, one start at most is in progress; one thread at most was created,
and no start succeeds without one. The next event may start a worker that is not started, give back
the only claim of a running one, or stop it, and changes nothing else about its life. Once it is
stopped it stays so, and every claim, wake-up and callback is refused with that error.

A scheduler with this worker is left as it was, store, sources and permission included, by a start
that is refused at its claim, and a start that succeeds takes the worker through the events of one. -/
theorem start_exclusive {events : List (Event κ)} (hfresh : w.Fresh) (hrun : w.run events = some v) :
    v.starters.length ≤ 1 ∧
    events.countP Event.completesStart ≤ events.countP Event.createsThread ∧
    events.countP Event.createsThread ≤ 1 ∧
    (∀ event v', v.step event = some v' →
      v'.lifecycle = v.lifecycle ∨
      (v.lifecycle = .notStarted ∧ v'.lifecycle = .running ∧ event = .reserve) ∨
      (v.lifecycle = .running ∧ v'.lifecycle = .notStarted ∧ v.starters = [.reserved] ∧
        event = .cancel 0) ∨
      v'.lifecycle = .stopped) ∧
    (v.lifecycle = .stopped → ∀ later v', v.run later = some v' →
      v'.lifecycle = .stopped ∧ v'.reserve = .error .stopped ∧ v'.wakeUp = .error .stopped ∧
        ∀ callback, v'.whenIdle callback = .error .stopped) ∧
    ∀ (σ : Type) (backend : Backend σ) (s : Scheduler σ κ) (source : Source) (testing : Bool),
      s.worker = v →
      (∀ error, v.reserve = .error error →
        s.start backend source testing = (.error (.refused (.worker error)), s)) ∧
      ∀ after, s.start backend source testing = (.ok (), after) →
        v.run [.reserve, .clear 0, .spawn 0, .storeHandle 0] = some after.worker := by
  have htallied := hfresh.tallied_run hrun
  refine ⟨htallied.orderly.oneStart.length_starters_le, ?_, htallied.once, ?_, ?_, ?_⟩
  · exact Nat.le_trans (Nat.le_add_right _ _) htallied.completed
  · intro event v' hstep
    exact htallied.orderly.lifecycle_cases (.of_step hstep)
  · intro hstopped later v' hlater
    have hstill := stopped_run hlater hstopped
    exact ⟨hstill, refused_of_stopped hstill⟩
  · rintro σ backend s source testing rfl
    constructor
    · intro error hrefused
      exact Scheduler.start_of_reserve_error backend source testing hrefused
    · intro after hstart
      exact run_of_start_ok htallied.orderly hstart

/-- A claim is given back, a second start claims the worker while a third is refused, and a stop comes
in between its look for one and its thread. -/
def stoppedAtLaunch : List (Event κ) :=
  [.reserve, .cancel 0, .reserve, .reserve, .clear 0, .stop, .spawn 0, .storeHandle 0, .reserve]

theorem start_exclusive_stoppedAtLaunch :
    ∃ v : Worker Unit, minutely.run stoppedAtLaunch = some v ∧ v.lifecycle = .stopped ∧
      (stoppedAtLaunch (κ := Unit)).countP Event.completesStart = 1 ∧
      (stoppedAtLaunch (κ := Unit)).countP Event.createsThread ≤ 1 ∧
      ∀ later v', v.run later = some v' → v'.lifecycle = .stopped ∧ v'.reserve = .error .stopped := by
  obtain ⟨v, hrun⟩ : ∃ v : Worker Unit, minutely.run stoppedAtLaunch = some v := ⟨_, rfl⟩
  have hstopped : v.lifecycle = .stopped := by
    cases hrun
    rfl
  obtain ⟨-, -, honce, -, hterminal, -⟩ := start_exclusive (fresh_mk ..) hrun
  refine ⟨v, hrun, hstopped, rfl, honce, ?_⟩
  intro later v' hlater
  obtain ⟨hstill, hrefused, -⟩ := hterminal hstopped later v' hlater
  exact ⟨hstill, hrefused⟩

end Worker

end ShopValidation
