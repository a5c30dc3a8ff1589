import ShopValidation.Proofs.Worker.LoopStep

/-!
# Starts, one after another

A worker has at most one start in progress, and a start makes the thread at most once: until then
there is no thread, and the start that made it is the only one left. Nothing is kept for a worker
that is not started, since a claim that is given back takes with it what was left in the meantime.

These facts hold after every run of a new worker, whatever its callers do.
-/

namespace ShopValidation

namespace Worker

variable {κ : Type} {w w' : Worker κ} {event : Event κ}

/-- A worker to which nothing has happened. -/
structure Fresh (w : Worker κ) : Prop where
  lifecycle : w.lifecycle = .notStarted
  phase : w.phase = .absent
  starters : w.starters = []
  wakePending : w.wakePending = false
  idleCallbacks : w.idleCallbacks = []

/-- A new worker is fresh, whatever its name, delays and clock. -/
theorem fresh_mk (name : String) (policy : Backoff) (clock : ManualClock) :
    ({ name := name, policy := policy, clock := clock } : Worker κ).Fresh :=
  ⟨rfl, rfl, rfl, rfl, rfl⟩

/-- The start in progress is the only one, and it has made the thread if there is one. -/
def OneStart (w : Worker κ) : Prop :=
  w.starters = [] ∨ ∃ starter, w.starters = [starter] ∧ (starter = .spawned ↔ w.phase ≠ .absent)

/-- The worker has one start at most, and keeps nothing until it is started. -/
structure Orderly (w : Worker κ) : Prop where
  oneStart : w.OneStart
  fresh_of_notStarted : w.lifecycle = .notStarted → w.Fresh

/-- A fresh worker has no start in progress. -/
theorem Fresh.orderly (h : w.Fresh) : w.Orderly := ⟨.inl h.starters, fun _ => h⟩

/-- The time has no part in the order of starts. -/
theorem Orderly.withClock (h : w.Orderly) (clock : ManualClock) :
    { w with clock := clock }.Orderly :=
  ⟨h.oneStart, fun hnew => { h.fresh_of_notStarted hnew with }⟩

/-- The start at any place in the list is the whole list. -/
theorem OneStart.starters_eq {i : Nat} {starter : Starter} (h : w.OneStart)
    (hi : w.starters[i]? = some starter) : i = 0 ∧ w.starters = [starter] := by
  rcases h with hnone | ⟨only, honly, -⟩
  · simp [hnone] at hi
  · rw [honly] at hi
    cases i with
    | zero =>
      obtain rfl : only = starter := by simpa using hi
      exact ⟨rfl, honly⟩
    | succ i => simp at hi

/-- As long as a start has not made the thread, there is none. -/
theorem OneStart.phase_eq_absent {i : Nat} {starter : Starter} (h : w.OneStart)
    (hi : w.starters[i]? = some starter) (hstarter : starter ≠ .spawned) : w.phase = .absent := by
  have honly := (h.starters_eq hi).2
  rcases h with hnone | ⟨only, heq, hphase⟩
  · rw [hnone] at honly
    cases honly
  · obtain rfl : starter = only := by simpa [honly] using heq
    exact Classical.not_not.mp (mt hphase.mpr hstarter)

/-- While a start is in progress the worker counts as started. -/
theorem Orderly.lifecycle_ne_notStarted {i : Nat} {starter : Starter} (h : w.Orderly)
    (hi : w.starters[i]? = some starter) : w.lifecycle ≠ .notStarted := by
  intro hnew
  rw [(h.fresh_of_notStarted hnew).starters] at hi
  cases hi

/-- Every step of the loop keeps the order of starts. -/
theorem Orderly.loopStep (h : w.Orderly) (hloop : LoopStep w event w') : w'.Orderly where
  oneStart := by
    unfold OneStart
    rw [hloop.starters_eq]
    rcases h.oneStart with hnone | ⟨starter, hstarter, hphase⟩
    · exact .inl hnone
    · have hsame := iff_of_true hloop.phase_ne_absent hloop.phase_ne_absent_after
      exact .inr ⟨starter, hstarter, hphase.trans hsame⟩
  fresh_of_notStarted hlife :=
    absurd (h.fresh_of_notStarted (hloop.lifecycle_eq ▸ hlife)).phase hloop.phase_ne_absent

/-- Every event keeps the order of starts. -/
theorem Orderly.step (h : w.Orderly) (hstep : Step w event w') : w'.Orderly := by
  cases hstep with
  | reserve hnew =>
    have hfresh := h.fresh_of_notStarted hnew
    have honly : w.starters ++ [.reserved] = [.reserved] := by simp [hfresh.starters]
    exact ⟨.inr ⟨.reserved, honly, by simp [hfresh.phase]⟩, nofun⟩
  | cancel i hstarter =>
    obtain ⟨rfl, honly⟩ := h.oneStart.starters_eq hstarter
    have habsent := h.oneStart.phase_eq_absent hstarter nofun
    have hnone : w.starters.eraseIdx 0 = [] := by simp [honly]
    exact ⟨.inl hnone, fun hlife => ⟨hlife, habsent, hnone, rfl, rfl⟩⟩
  | clear i hstarter hlife =>
    obtain ⟨rfl, honly⟩ := h.oneStart.starters_eq hstarter
    have habsent := h.oneStart.phase_eq_absent hstarter nofun
    have hstarted := h.lifecycle_ne_notStarted hstarter
    have hone : w.starters.set 0 .cleared = [.cleared] := by simp [honly]
    exact ⟨.inr ⟨.cleared, hone, by simp [habsent]⟩, fun hnew => absurd hnew hstarted⟩
  | clearRefused i hstarter hlife =>
    obtain ⟨rfl, honly⟩ := h.oneStart.starters_eq hstarter
    have hstarted := h.lifecycle_ne_notStarted hstarter
    have hnone : w.starters.eraseIdx 0 = [] := by simp [honly]
    exact ⟨.inl hnone, fun hnew => absurd hnew hstarted⟩
  | spawn i hstarter =>
    obtain ⟨rfl, honly⟩ := h.oneStart.starters_eq hstarter
    have hstarted := h.lifecycle_ne_notStarted hstarter
    have hone : w.starters.set 0 .spawned = [.spawned] := by simp [honly]
    exact ⟨.inr ⟨.spawned, hone, by simp⟩, fun hnew => absurd hnew hstarted⟩
  | failSpawn i hstarter =>
    obtain ⟨rfl, honly⟩ := h.oneStart.starters_eq hstarter
    have hnone : w.starters.eraseIdx 0 = [] := by simp [honly]
    exact ⟨.inl hnone, nofun⟩
  | storeHandle i hstarter =>
    obtain ⟨rfl, honly⟩ := h.oneStart.starters_eq hstarter
    have hstarted := h.lifecycle_ne_notStarted hstarter
    have hnone : w.starters.eraseIdx 0 = [] := by simp [honly]
    exact ⟨.inl hnone, fun hnew => absurd hnew hstarted⟩
  | wakeUp hrunning | whenIdle callback hrunning =>
    refine ⟨h.oneStart, fun hnew => ?_⟩
    rw [hrunning] at hnew
    cases hnew
  | stop | stopToJoin => exact ⟨h.oneStart, nofun⟩
  | takeHandle | join =>
    exact ⟨h.oneStart, fun hnew => { h.fresh_of_notStarted hnew with lifecycle := hnew }⟩
  | reserveRefused | wakeUpRefused | whenIdleRefused => exact h
  | loop event w' hloop => exact h.loopStep hloop

/-- An event leaves the worker where it is in its life, starts it, gives the one claim back, or stops
it. -/
theorem Orderly.lifecycle_cases (h : w.Orderly) (hstep : Step w event w') :
    w'.lifecycle = w.lifecycle ∨
    (w.lifecycle = .notStarted ∧ w'.lifecycle = .running ∧ event = .reserve) ∨
    (w.lifecycle = .running ∧ w'.lifecycle = .notStarted ∧ w.starters = [.reserved] ∧
      event = .cancel 0) ∨
    w'.lifecycle = .stopped := by
  cases hstep with
  | reserve hnew => exact .inr (.inl ⟨hnew, rfl, rfl⟩)
  | cancel i hstarter =>
    obtain ⟨rfl, honly⟩ := h.oneStart.starters_eq hstarter
    by_cases hrunning : w.lifecycle = .running
    · have hback : w.release.lifecycle = .notStarted := if_pos hrunning
      exact .inr (.inr (.inl ⟨hrunning, hback, honly, rfl⟩))
    · have hsame : w.release.lifecycle = w.lifecycle := if_neg hrunning
      exact .inl hsame
  | stop | stopToJoin | failSpawn => exact .inr (.inr (.inr rfl))
  | loop event w' hloop => exact .inl hloop.lifecycle_eq
  | _ => exact .inl rfl

/-- A worker that is stopped stays stopped. -/
theorem Step.stopped (hstep : Step w event w') (h : w.lifecycle = .stopped) :
    w'.lifecycle = .stopped := by
  cases hstep with
  | reserve hnew => exact nomatch h.symm.trans hnew
  | cancel i hstarter => simp [release, h]
  | stop | stopToJoin | failSpawn => rfl
  | loop event w' hloop => exact hloop.lifecycle_eq.trans h
  | _ => exact h

/-- Nothing that happens to a stopped worker makes it anything else. -/
theorem stopped_run {events : List (Event κ)} (hrun : w.run events = some w')
    (h : w.lifecycle = .stopped) : w'.lifecycle = .stopped :=
  run_induct (P := fun _ v => v.lifecycle = .stopped) hrun h fun _ _ _ _ _ hv hstep =>
    hstep.stopped hv

/-- After every run of a fresh worker its starts are in order. -/
theorem Fresh.orderly_run {events : List (Event κ)} (h : w.Fresh) (hrun : w.run events = some w') :
    w'.Orderly :=
  run_induct (P := fun _ => Orderly) hrun h.orderly fun _ _ _ _ _ => Orderly.step

end Worker

end ShopValidation
