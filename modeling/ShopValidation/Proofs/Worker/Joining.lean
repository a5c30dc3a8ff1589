import Mathlib.Data.List.Perm.Basic
import ShopValidation.Proofs.Worker.Stopping

/-!
# Waiting for the thread

A call that stops the worker and waits for its thread looks for the handle of the thread, and waits
only if it finds it. There is one handle. It is stored after the thread was created, and the first call
that looks for it afterwards takes it. A call that looks before the handle is stored, or after another
call has taken it, returns at once.

The main statement says exactly when the loop is over for good once such a call has returned, and
where the handle is if it is not.
-/

namespace ShopValidation

namespace Worker

variable {κ : Type} {w w' v v' : Worker κ} {event : Event κ} {past : List (Event κ)} {j : Nat}

/-- The loop does not run and begins no unit of work from now on, whatever happens. -/
def Over (w : Worker κ) : Prop :=
  ∀ later w', w.run later = some w' → w'.isActive = false ∧ .beginWork ∉ later

/-- There is a thread that has not ended, or a launch that found no stop and makes one next. -/
def Manned (w : Worker κ) : Prop :=
  (w.phase ≠ .absent ∧ w.phase ≠ .exited) ∨ .cleared ∈ w.starters

/-- The loop moves only while its thread is there. -/
theorem LoopStep.phase_ne_exited (h : LoopStep w event w') : w.phase ≠ .exited := by
  cases h <;> simp [*]

/-- The thread has ended in one phase only. -/
theorem hasExited_iff : w.hasExited = true ↔ w.phase = .exited := by
  unfold hasExited
  split <;> simp_all

/-- A loop without a thread is not active. -/
theorem isActive_eq_false (h : ¬w.Manned) : w.isActive = false := by
  unfold Manned at h
  unfold isActive
  split <;> simp_all

/-- A stopped worker gets no thread unless one is already on its way, and begins no work without. -/
theorem Step.not_manned (hstep : Step w event w') (hstopped : w.lifecycle = .stopped)
    (h : ¬w.Manned) : ¬w'.Manned ∧ event ≠ .beginWork := by
  have hcleared : .cleared ∉ w.starters := fun hmem => h (.inr hmem)
  cases hstep with
  | reserve hnew => exact nomatch hstopped.symm.trans hnew
  | clear i hstarter hlife => exact absurd hstopped hlife
  | spawn i hstarter | failSpawn i hstarter =>
    exact absurd (List.mem_of_getElem? hstarter) hcleared
  | cancel i hstarter | clearRefused i hstarter | storeHandle i hstarter =>
    exact ⟨fun hmanned => h (hmanned.imp id List.mem_of_mem_eraseIdx), nofun⟩
  | loop event w' hloop =>
    exact absurd (.inl ⟨hloop.phase_ne_absent, hloop.phase_ne_exited⟩) h
  | _ => exact ⟨h, nofun⟩

/-- A stopped worker without a thread is over for good. -/
theorem over_of_not_manned (hstopped : w.lifecycle = .stopped) (h : ¬w.Manned) : w.Over := by
  intro later
  induction later generalizing w with
  | nil =>
    intro w' hrun
    cases hrun
    exact ⟨isActive_eq_false h, List.not_mem_nil⟩
  | cons event later ih =>
    intro w' hrun
    obtain ⟨next, hnext, hrest⟩ := Option.bind_eq_some_iff.mp hrun
    have hstep := Step.of_step hnext
    obtain ⟨hmanned, hother⟩ := hstep.not_manned hstopped h
    obtain ⟨hidle, hlater⟩ := ih (hstep.stopped hstopped) hmanned w' hrest
    exact ⟨hidle, List.not_mem_cons_of_ne_of_not_mem hother.symm hlater⟩

/-- A thread that is entering its loop becomes active. -/
theorem not_over_of_entering (hphase : w.phase = .entering) : ¬w.Over := by
  intro hover
  have henter := (LoopStep.enter hphase).step_eq
  have hrun : w.run [.enter] = some { w with phase := .ready } := by
    rw [run_cons, henter]
    rfl
  cases (hover _ _ hrun).1

/-- A worker with a thread, or with one on its way, is not over. -/
theorem not_over_of_manned (h : w.Manned) : ¬w.Over := by
  rcases h with ⟨habsent, hexited⟩ | hcleared
  · by_cases hentering : w.phase = .entering
    · exact not_over_of_entering hentering
    · intro hover
      have hactive : w.isActive = true := by
        unfold isActive
        split <;> simp_all
      exact absurd (hover [] w rfl).1 (by simp [hactive])
  · obtain ⟨i, hi⟩ := List.mem_iff_getElem?.mp hcleared
    intro hover
    have hspawn : w.step (.spawn i) =
        some { w with starters := w.starters.set i .spawned, phase := .entering } := if_pos hi
    refine not_over_of_entering
      (w := { w with starters := w.starters.set i .spawned, phase := .entering }) rfl ?_
    intro later w' hrun
    have hwhole : w.run (.spawn i :: later) = some w' := by
      rw [run_cons, hspawn]
      exact hrun
    obtain ⟨hidle, hlater⟩ := hover _ _ hwhole
    exact ⟨hidle, fun hmem => hlater (List.mem_cons_of_mem _ hmem)⟩

/-- A stopped worker is over for good exactly when it has no thread and none is on its way. -/
theorem over_iff (hstopped : w.lifecycle = .stopped) : w.Over ↔ ¬w.Manned :=
  ⟨fun hover hmanned => not_over_of_manned hmanned hover, over_of_not_manned hstopped⟩

/-- The handles of the thread: with a launch that has yet to store it, in its place, or with a call
that waits for the thread. -/
def handles (w : Worker κ) : Nat :=
  w.starters.count .spawned + w.handleStored.toNat + w.joiners.count (.holding true)

/-- The thread has one handle for as long as it runs, and whoever waits for it has stopped it. -/
structure Kept (w : Worker κ) : Prop where
  orderly : w.Orderly
  stopped : w.joiners ≠ [] → w.lifecycle = .stopped
  absent : w.phase = .absent → w.handles = 0
  most : w.handles ≤ 1
  least : w.phase ≠ .absent → w.phase ≠ .exited → 1 ≤ w.handles

/-- An event that moves neither the thread nor its handle keeps the handle. -/
theorem Kept.frame (h : w.Kept) (horderly : w'.Orderly)
    (hstopped : w'.joiners ≠ [] → w'.lifecycle = .stopped) (hphase : w'.phase = w.phase)
    (hhandles : w'.handles = w.handles) : w'.Kept := by
  constructor
  · exact horderly
  · exact hstopped
  · rw [hphase, hhandles]
    exact h.absent
  · exact hhandles ▸ h.most
  · rw [hphase, hhandles]
    exact h.least

/-- What a call has of the handle counts beside what the other calls have. -/
theorem count_joiners {joiner : Joiner} (hjoiner : w.joiners[j]? = some joiner) :
    w.joiners.count (.holding true) =
      [joiner].count (.holding true) + (w.joiners.eraseIdx j).count (.holding true) := by
  obtain ⟨hlt, rfl⟩ := List.getElem?_eq_some_iff.mp hjoiner
  rw [← List.count_append]
  exact ((List.getElem_cons_eraseIdx_perm hlt).count_eq _).symm

/-- A call that looks for the handle has it afterwards if it was in its place. -/
theorem handles_takeHandle (hjoiner : w.joiners[j]? = some .stopped) :
    handles { w with joiners := w.joiners.set j (.holding w.handleStored), handleStored := false } =
      w.handles := by
  have hlt := (List.getElem?_eq_some_iff.mp hjoiner).1
  have hbefore := count_joiners hjoiner
  have hafter : (w.joiners.set j (.holding w.handleStored)).count (.holding true) =
      w.handleStored.toNat + (w.joiners.eraseIdx j).count (.holding true) := by
    rw [(List.set_perm_cons_eraseIdx hlt _).count_eq, List.count_cons, Nat.add_comm]
    cases w.handleStored <;> rfl
  have hother : [Joiner.stopped].count (.holding true) = 0 := rfl
  simp only [handles, Bool.toNat_false, hafter, hbefore, hother]
  omega

/-- Every step of the loop keeps the handle. -/
theorem Kept.loopStep (h : w.Kept) (hloop : LoopStep w event w') : w'.Kept := by
  have hhandles : w'.handles = w.handles := by cases hloop <;> rfl
  constructor
  · exact h.orderly.loopStep hloop
  · rw [hloop.lifecycle_eq]
    cases hloop <;> exact h.stopped
  · exact fun habsent => absurd habsent hloop.phase_ne_absent_after
  · exact hhandles ▸ h.most
  · exact fun _ _ => hhandles ▸ h.least hloop.phase_ne_absent hloop.phase_ne_exited

/-- A call that returns leaves the handle where it is, or drops that of a thread that has ended. -/
theorem Kept.join (h : w.Kept)
    (hjoiner : w.joiners[j]? = some (.holding false) ∨
      w.joiners[j]? = some (.holding true) ∧ w.hasExited = true)
    (horderly : Orderly { w with joiners := w.joiners.eraseIdx j, joined := w.joined + 1 })
    (hstopped : w.lifecycle = .stopped) :
    Kept { w with joiners := w.joiners.eraseIdx j, joined := w.joined + 1 } := by
  rcases hjoiner with hwithout | ⟨hwith, hexited⟩
  · have hcount := count_joiners hwithout
    have hother : [Joiner.holding false].count (.holding true) = 0 := rfl
    apply h.frame horderly (fun _ => hstopped) rfl
    simp only [handles]
    omega
  · have hcount := count_joiners hwith
    have hmost := h.most
    have hphase := hasExited_iff.mp hexited
    constructor
    · exact horderly
    · exact fun _ => hstopped
    · intro habsent
      cases hphase.symm.trans habsent
    · simp only [handles] at hmost ⊢
      omega
    · exact fun _ hrunning => absurd hphase hrunning

/-- Every event keeps the handle. -/
theorem Kept.step (h : w.Kept) (hstep : Step w event w') : w'.Kept := by
  have horderly := h.orderly.step hstep
  have hstopped (hjoiners : w.joiners ≠ []) := hstep.stopped (h.stopped hjoiners)
  cases hstep with
  | reserve hnew => exact h.frame horderly hstopped rfl (by simp [handles])
  | cancel i hstarter | clear i hstarter hlife | clearRefused i hstarter hlife
  | failSpawn i hstarter =>
    obtain ⟨rfl, honly⟩ := h.orderly.oneStart.starters_eq hstarter
    exact h.frame horderly hstopped rfl (by simp [handles, honly, release])
  | spawn i hstarter =>
    obtain ⟨rfl, honly⟩ := h.orderly.oneStart.starters_eq hstarter
    have hnone := h.absent (h.orderly.oneStart.phase_eq_absent hstarter (by decide))
    have hone :
        handles { w with starters := w.starters.set 0 .spawned, phase := .entering } = 1 := by
      have hspawned : [Starter.spawned].count .spawned = 1 := rfl
      simp only [handles, honly, List.set_cons_zero, hspawned] at hnone ⊢
      omega
    constructor
    · exact horderly
    · exact hstopped
    · intro habsent
      cases habsent
    · exact Nat.le_of_eq hone
    · exact fun _ _ => Nat.le_of_eq hone.symm
  | storeHandle i hstarter =>
    obtain ⟨rfl, honly⟩ := h.orderly.oneStart.starters_eq hstarter
    have hmost := h.most
    have hspawned : [Starter.spawned].count .spawned = 1 := rfl
    apply h.frame horderly hstopped rfl
    simp only [handles, honly, hspawned, List.eraseIdx_cons_zero, List.count_nil,
      Bool.toNat_true] at hmost ⊢
    omega
  | stopToJoin => exact h.frame horderly (fun _ => rfl) rfl (by simp [handles, stop])
  | takeHandle j hjoiner =>
    have hsome : w.joiners ≠ [] := List.ne_nil_of_mem (List.mem_of_getElem? hjoiner)
    exact h.frame horderly (fun _ => hstopped hsome) rfl (handles_takeHandle hjoiner)
  | join j hjoiner =>
    have hsome : w.joiners ≠ [] := by
      rintro hnil
      simp [hnil] at hjoiner
    exact h.join hjoiner horderly (hstopped hsome)
  | loop event w' hloop => exact h.loopStep hloop
  | _ => exact h.frame horderly hstopped rfl rfl

/-- A worker to which nothing has happened, and for which nobody waits. -/
structure Unused (w : Worker κ) : Prop extends w.Fresh where
  joiners : w.joiners = []
  handleStored : w.handleStored = false

/-- A new worker is unused, whatever its name, delays and clock. -/
theorem unused_mk (name : String) (policy : Backoff) (clock : ManualClock) :
    ({ name := name, policy := policy, clock := clock } : Worker κ).Unused :=
  ⟨fresh_mk name policy clock, rfl, rfl⟩

/-- The handle is kept in every run of an unused worker. -/
theorem Unused.kept_run (h : w.Unused) (hrun : w.run past = some v) : v.Kept := by
  apply run_induct (P := fun _ => Kept) hrun
  · have hnone : w.handles = 0 := by simp [handles, h.starters, h.joiners, h.handleStored]
    exact ⟨h.orderly, fun hsome => absurd h.joiners hsome, fun _ => hnone, by omega,
      fun hthread => absurd h.phase hthread⟩
  · intro past v event v' _ hv hstep
    exact hv.step hstep

/-- Where a handle is kept, it is with a launch, in its place, or with a call that waits. -/
theorem handle_cases (h : 1 ≤ w.handles) :
    .spawned ∈ w.starters ∨ w.handleStored = true ∨ .holding true ∈ w.joiners := by
  by_contra hnowhere
  simp only [not_or, Bool.not_eq_true] at hnowhere
  obtain ⟨hstarters, hstored, hjoiners⟩ := hnowhere
  rw [handles, List.count_eq_zero.mpr hstarters, List.count_eq_zero.mpr hjoiners, hstored] at h
  exact absurd h (by decide)

/-- When a call that stops the worker and waits for its thread returns, the loop is over for good
exactly if no thread is there that has not ended and no launch is past its look for a stop. It is over
if the call found the handle. If it is not, the call found none: the launch has yet to create the
thread or to store its handle, or it has stored it since, or another call has it and still waits. -/
theorem over_of_join_iff (hunused : w.Unused) (hrun : w.run past = some v)
    (hjoin : v.step (.join j) = some v') :
    (v'.Over ↔ ¬v.Manned) ∧
    (v.joiners[j]? = some (.holding true) → v'.Over) ∧
    (v.Manned → v.joiners[j]? = some (.holding false) ∧
      (.cleared ∈ v.starters ∨ .spawned ∈ v.starters ∨ v.handleStored = true ∨
        ∃ i, i ≠ j ∧ v.joiners[i]? = some (.holding true))) := by
  have hkept := hunused.kept_run hrun
  obtain ⟨hjoiner, hafter⟩ := Option.ite_none_right_eq_some.mp hjoin
  have hsome : v.joiners ≠ [] := by
    rintro hnil
    simp [hnil] at hjoiner
  have hover : v'.Over ↔ ¬v.Manned := by
    cases hafter
    exact over_iff (hkept.stopped hsome)
  have hended (hexited : v.hasExited = true) : ¬v.Manned := by
    have hphase := hasExited_iff.mp hexited
    rintro (⟨-, hrunning⟩ | hcleared)
    · exact hrunning hphase
    · obtain ⟨i, hi⟩ := List.mem_iff_getElem?.mp hcleared
      exact nomatch hphase.symm.trans (hkept.orderly.oneStart.phase_eq_absent hi nofun)
  refine ⟨hover, ?_, ?_⟩
  · intro hwith
    have hexited : v.hasExited = true := by
      simpa [hwith] using hjoiner
    exact hover.mpr (hended hexited)
  · intro hmanned
    have hwithout : v.joiners[j]? = some (.holding false) :=
      hjoiner.resolve_right fun hwith => hended hwith.2 hmanned
    refine ⟨hwithout, ?_⟩
    rcases hmanned with ⟨habsent, hrunning⟩ | hcleared
    · rcases handle_cases (hkept.least habsent hrunning) with hspawned | hstored | hjoiners
      · exact .inr (.inl hspawned)
      · exact .inr (.inr (.inl hstored))
      · obtain ⟨i, hi⟩ := List.mem_iff_getElem?.mp hjoiners
        refine .inr (.inr (.inr ⟨i, ?_, hi⟩))
        rintro rfl
        cases hwithout.symm.trans hi
    · exact .inl hcleared

/-- A launch finds no stop, and a call that stops the worker looks for the handle before there is a
thread. -/
def overtakenLaunch : List (Event Unit) := [.reserve, .clear 0, .stopToJoin, .takeHandle 0]

theorem over_of_join_overtakenLaunch :
    ∃ v v' : Worker Unit, minutely.run overtakenLaunch = some v ∧ v.step (.join 0) = some v' ∧
      .cleared ∈ v.starters ∧ ¬v'.Over := by
  obtain ⟨v, hrun⟩ : ∃ v : Worker Unit, minutely.run overtakenLaunch = some v := ⟨_, rfl⟩
  have hcleared : .cleared ∈ v.starters := by
    cases hrun
    exact List.mem_cons_self
  obtain ⟨v', hjoin⟩ : ∃ v', v.step (.join 0) = some v' := by
    cases hrun
    exact ⟨_, rfl⟩
  obtain ⟨hover, -, -⟩ := over_of_join_iff (unused_mk ..) hrun hjoin
  exact ⟨v, v', hrun, hjoin, hcleared, fun h => hover.mp h (.inr hcleared)⟩

/-- Two calls wait for a thread at work, and the first has taken the handle. -/
def secondCaller : List (Event Unit) :=
  [.reserve, .clear 0, .spawn 0, .storeHandle 0, .enter, .beginWork, .stopToJoin, .stopToJoin,
    .takeHandle 0, .takeHandle 1]

theorem not_over_of_join :
    ¬∀ (w v v' : Worker Unit) (past : List (Event Unit)) (j : Nat), w.Unused →
      w.run past = some v → v.step (.join j) = some v' → v'.Over := by
  intro h
  have hover := h minutely _ _ secondCaller 1 (unused_mk ..) rfl rfl
  cases (hover [] _ rfl).1

end Worker

end ShopValidation
