import ShopValidation.Proofs.Worker.IdleCallback

/-!
# What the loop still does after a stop

The loop looks for a stop after its work, before and after a pause, and where it decides whether to
sleep. It does not look where a question for more work was answered with yes, nor before the first
unit of work. So a stop that comes before such an answer lets one more unit of work begin.

The main statement says exactly where a stop may come for this to happen, and that it is one unit at
most.
-/

namespace ShopValidation

variable {κ : Type}

/-- Whether an event is the beginning of a unit of work. -/
def Event.beginsWork : Event κ → Bool
  | .beginWork => true
  | _ => false

/-- Whether the loop may begin a unit of work before it looks for a stop again. -/
def Phase.eager : Phase κ → Bool
  | .entering | .ready | .rearming | .checking _ | .probing _ | .collecting | .flushing _
  | .calling _ => true
  | _ => false

namespace Worker

variable {w w' v : Worker κ} {event : Event κ} {later : List (Event κ)}

/-- The loop of a worker that is stopped. -/
structure Stopping (w : Worker κ) : Prop where
  orderly : w.Orderly
  stopped : w.lifecycle = .stopped
  launched : w.phase ≠ .absent

/-- Where a stop was asked for, the loop leaves as soon as it looks for one. -/
theorem unlessStopped_phase (hstopped : w.lifecycle = .stopped) (next : Phase κ) :
    (w.unlessStopped next).phase = .leaving :=
  if_pos (stopRequested_iff.mpr hstopped)

/-- A loop that is stopped begins work where it is ready to, and comes to where it may begin some only
from where it may. -/
theorem LoopStep.eager (h : LoopStep w event w') (hstopped : w.lifecycle = .stopped) :
    event.beginsWork = true ∧ w.phase.eager = true ∧ w'.phase.eager = false ∨
    event.beginsWork = false ∧ (w'.phase.eager = true → w.phase.eager = true) := by
  have hleaving (next : Phase κ) : (w.unlessStopped next).phase.eager = false := by
    rw [unlessStopped_phase hstopped]
    rfl
  cases h with
  | beginWork hphase => exact .inl ⟨rfl, by simp [hphase, Phase.eager], rfl⟩
  | checkAfterWork | stayAwake | awaken | checkBeforePause | checkAfterPause =>
    exact .inr ⟨rfl, by simp [hleaving]⟩
  | endWork succeeded => exact .inr ⟨rfl, by cases succeeded <;> simp [Phase.eager]⟩
  | _ => exact .inr ⟨rfl, by simp [Phase.eager, *]⟩

/-- A loop that is stopped comes to the beginning of a unit of work from the entry of its thread, or
because it was told that there is more. -/
theorem LoopStep.ready (h : LoopStep w event w') (hstopped : w.lifecycle = .stopped)
    (hready : w'.phase = .entering ∨ w'.phase = .ready) :
    w.phase = .entering ∨ event = .endProbe (some true) := by
  have hleaving (next : Phase κ) :
      ¬((w.unlessStopped next).phase = .entering ∨ (w.unlessStopped next).phase = .ready) := by
    simp [unlessStopped_phase hstopped]
  cases h with
  | enter hphase => exact .inl hphase
  | checkAfterWork | stayAwake | awaken | checkBeforePause | checkAfterPause =>
    exact absurd hready (hleaving _)
  | endWork succeeded => cases succeeded <;> simp at hready
  | endProbe round hasWork =>
    rcases hasWork with _ | _ | _
    · simp [afterProbe] at hready
    · cases round <;> simp [afterProbe] at hready
    · exact .inr rfl
  | _ => simp at hready

/-- Once there is a thread, callers have no part in where the loop stands. -/
theorem Step.loop_or_phase_eq (h : Step w event w') (horderly : w.Orderly)
    (hlaunched : w.phase ≠ .absent) :
    LoopStep w event w' ∨ event.beginsWork = false ∧ w'.phase = w.phase := by
  cases h with
  | spawn i hstarter =>
    exact absurd (horderly.oneStart.phase_eq_absent hstarter nofun) hlaunched
  | loop event w' hloop => exact .inl hloop
  | _ => exact .inr ⟨rfl, rfl⟩

/-- Every event leaves a stopped worker stopped, and its thread there. -/
theorem Stopping.step (h : w.Stopping) (hstep : Step w event w') : w'.Stopping where
  orderly := h.orderly.step hstep
  stopped := hstep.stopped h.stopped
  launched := by
    rcases hstep.loop_or_phase_eq h.orderly h.launched with hloop | ⟨-, hphase⟩
    · exact hloop.phase_ne_absent_after
    · exact hphase ▸ h.launched

/-- After a stop one unit of work begins at most, and none where the loop looks for a stop first. -/
theorem Stopping.countP_beginsWork_le (h : w.Stopping) (hrun : w.run later = some w') :
    later.countP Event.beginsWork ≤ w.phase.eager.toNat := by
  induction later generalizing w with
  | nil => exact Nat.zero_le _
  | cons event later ih =>
    obtain ⟨next, hnext, hrest⟩ := Option.bind_eq_some_iff.mp hrun
    have hstep := Step.of_step hnext
    have hle := ih (h.step hstep) hrest
    rw [List.countP_cons]
    rcases hstep.loop_or_phase_eq h.orderly h.launched with hloop | ⟨hother, hphase⟩
    · rcases hloop.eager h.stopped with ⟨hbegins, hbefore, hafter⟩ | ⟨hother, heager⟩
      · rw [hafter] at hle
        rw [hbegins, hbefore]
        simpa using hle
      · have hmono : next.phase.eager.toNat ≤ w.phase.eager.toNat := by
          cases hnow : next.phase.eager with
          | false => exact Nat.zero_le _
          | true => exact Nat.le_of_eq (congrArg Bool.toNat (heager hnow).symm)
        rw [hother]
        exact Nat.le_trans hle hmono
    · rw [hother]
      rwa [hphase] at hle

/-- A unit of work that begins after a stop was next already, or the loop was told that there is
more. -/
theorem Stopping.ready_or_told (h : w.Stopping) (hrun : w.run later = some w')
    (hbegins : .beginWork ∈ later) :
    (w.phase = .entering ∨ w.phase = .ready) ∨ .endProbe (some true) ∈ later := by
  induction later generalizing w with
  | nil => cases hbegins
  | cons event later ih =>
    obtain ⟨next, hnext, hrest⟩ := Option.bind_eq_some_iff.mp hrun
    have hstep := Step.of_step hnext
    rcases List.mem_cons.mp hbegins with rfl | hlater
    · cases stepLoop_eq_some_iff.mp hnext with
      | beginWork hphase => exact .inl (.inr hphase)
    · rcases ih (h.step hstep) hrest hlater with hready | htold
      · rcases hstep.loop_or_phase_eq h.orderly h.launched with hloop | ⟨-, hphase⟩
        · rcases hloop.ready h.stopped hready with hentering | rfl
          · exact .inl (.inl hentering)
          · exact .inr List.mem_cons_self
        · exact .inl (hphase ▸ hready)
      · exact .inr (List.mem_cons_of_mem _ htold)

/-- Some run of the worker has the beginning of a unit of work in it. -/
def MayWork (w : Worker κ) : Prop := ∃ later w', w.run later = some w' ∧ .beginWork ∈ later

/-- What may happen after a step of the loop may happen before it. -/
theorem MayWork.of_loopStep (h : w'.MayWork) (hloop : LoopStep w event w') : w.MayWork := by
  obtain ⟨later, last, hrun, hbegins⟩ := h
  refine ⟨event :: later, last, ?_, List.mem_cons_of_mem _ hbegins⟩
  rw [run_cons, hloop.step_eq]
  exact hrun

/-- Work may begin where it is next. -/
theorem mayWork_of_ready (hphase : w.phase = .ready) : w.MayWork := by
  have hbegin := (LoopStep.beginWork hphase).step_eq
  exact ⟨[.beginWork], _, by rw [run_cons, hbegin]; rfl, List.mem_cons_self⟩

/-- Work may begin where a question is open: the answer may be yes. -/
theorem mayWork_of_probing {round : Round} (hphase : w.phase = .probing round) : w.MayWork := by
  apply MayWork.of_loopStep _ (.endProbe round (some true) hphase)
  exact mayWork_of_ready rfl

/-- Work may begin where a question is next. -/
theorem mayWork_of_checking {round : Round} (hphase : w.phase = .checking round) : w.MayWork := by
  apply MayWork.of_loopStep _ (.beginProbe round hphase)
  exact mayWork_of_probing rfl

/-- Work may begin while callbacks are called, since a question comes after them. -/
theorem mayWork_of_flushing {rest : List κ} (hphase : w.phase = .flushing rest) : w.MayWork := by
  induction rest generalizing w with
  | nil =>
    apply MayWork.of_loopStep _ (.endFlush hphase)
    exact mayWork_of_checking rfl
  | cons callback rest ih =>
    apply MayWork.of_loopStep _ (.beginCall callback rest hphase)
    apply MayWork.of_loopStep _ (.endCall rest rfl)
    exact ih rfl

/-- Work may begin wherever the loop does not look for a stop first. -/
theorem mayWork_of_eager (heager : w.phase.eager = true) : w.MayWork := by
  cases hphase : w.phase with
  | entering =>
    apply MayWork.of_loopStep _ (.enter hphase)
    exact mayWork_of_ready rfl
  | ready => exact mayWork_of_ready hphase
  | rearming =>
    apply MayWork.of_loopStep _ (.rearm hphase)
    exact mayWork_of_checking rfl
  | checking round => exact mayWork_of_checking hphase
  | probing round => exact mayWork_of_probing hphase
  | collecting =>
    apply MayWork.of_loopStep _ (.collect hphase)
    exact mayWork_of_flushing rfl
  | flushing rest => exact mayWork_of_flushing hphase
  | calling rest =>
    apply MayWork.of_loopStep _ (.endCall rest hphase)
    exact mayWork_of_flushing rfl
  | _ => simp [hphase, Phase.eager] at heager

/-- After a stop of a worker with a thread, one unit of work begins at most, and only where it was next
already or the loop is told that there is more. One may begin exactly where the stop comes before the
first unit or after the loop has looked for a stop, up to where it decides whether to sleep. -/
theorem beginsWork_after_stop_iff {past : List (Event κ)} (hfresh : w.Fresh)
    (hrun : w.run past = some v) (hlaunched : v.phase ≠ .absent) :
    (∀ later v', v.stop.run later = some v' →
      later.countP Event.beginsWork ≤ 1 ∧
      (.beginWork ∈ later →
        (v.phase = .entering ∨ v.phase = .ready) ∨ .endProbe (some true) ∈ later)) ∧
    ((∃ later v', v.stop.run later = some v' ∧ .beginWork ∈ later) ↔ v.phase.eager = true) := by
  have hstopping : v.stop.Stopping :=
    ⟨(hfresh.orderly_run hrun).step .stop, rfl, hlaunched⟩
  refine ⟨?_, ?_, ?_⟩
  · intro later v' hlater
    have hle := hstopping.countP_beginsWork_le hlater
    exact ⟨Nat.le_trans hle (Bool.toNat_le _), hstopping.ready_or_told hlater⟩
  · rintro ⟨later, v', hlater, hbegins⟩
    have hle := hstopping.countP_beginsWork_le hlater
    have hpos := List.countP_pos_iff.mpr ⟨_, hbegins, (rfl : Event.beginsWork _ = true)⟩
    cases heager : v.phase.eager with
    | true => rfl
    | false =>
      have hnone : v.stop.phase.eager.toNat = 0 := congrArg Bool.toNat heager
      omega
  · intro heager
    exact mayWork_of_eager (w := v.stop) heager

/-- The events up to the call of an idle callback. -/
def untilCallback : List (Event Unit) :=
  [.reserve, .clear 0, .spawn 0, .storeHandle 0, .whenIdle (), .enter, .beginWork, .endWork true,
    .countSuccess, .checkAfterWork, .rearm, .beginProbe, .endProbe (some false), .collect, .beginCall]

/-- The callback stops the worker and makes work, and the loop goes on to it. -/
def afterCallback : List (Event Unit) :=
  [.endCall, .endFlush, .beginProbe, .endProbe (some true), .beginWork]

theorem beginsWork_after_stop_untilCallback :
    ∃ v : Worker Unit, minutely.run untilCallback = some v ∧ v.phase = .calling [] ∧
      (∀ later v', v.stop.run later = some v' → later.countP Event.beginsWork ≤ 1) ∧
      ∃ later v', v.stop.run later = some v' ∧ .beginWork ∈ later := by
  obtain ⟨v, hrun⟩ : ∃ v : Worker Unit, minutely.run untilCallback = some v := ⟨_, rfl⟩
  have hphase : v.phase = .calling [] := by
    cases hrun
    rfl
  obtain ⟨hafter, hiff⟩ := beginsWork_after_stop_iff (fresh_mk ..) hrun (by simp [hphase])
  refine ⟨v, hrun, hphase, ?_, hiff.mpr (by simp [hphase, Phase.eager])⟩
  intro later v' hlater
  exact (hafter later v' hlater).1

theorem not_idle_after_stop :
    ¬∀ (w v v' : Worker Unit) (past later : List (Event Unit)), w.Fresh → w.run past = some v →
      v.phase ≠ .absent → v.stop.run later = some v' → .beginWork ∉ later := by
  intro h
  exact h minutely _ _ untilCallback afterCallback (fresh_mk ..) rfl nofun rfl (by decide)

end Worker

end ShopValidation
