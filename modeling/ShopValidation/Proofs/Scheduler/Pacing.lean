import Mathlib
import ShopValidation.Proofs.Scheduler.Question

/-!
# The pace of questions

A loop that has the queue for itself comes from one question to the next in one of two ways only: one
of the tasks that it asked about is off the queue, or its batch has failed and it has paused once, for
as long as its policy says. So each question is paid for by a row that was queued or by a failure that
was counted.
-/

namespace ShopValidation

namespace Service

variable {κ : Type} {service after : Service κ} {move : Move κ} {picked : List QueuedTask}

/-- Where a loop stands after a question about these tasks, until one of them is off the queue, with the
pauses that it makes before it asks again. A loop that is gone does not ask again, so that any pauses
will do. -/
inductive Due (picked : List QueuedTask) (service : Service κ) : List Duration → Prop where
  | unsettled (hunsettled : service.Unsettled picked) :
    Due picked service [service.worker.policy.delay]
  | charged (delay : Duration)
    (hphase : service.worker.phase = .charged delay ∨ service.worker.phase = .pausing delay) :
    Due picked service [delay]
  | rested (hphase : service.worker.phase = .rested ∨ service.worker.phase = .ready) :
    Due picked service []
  | asking (running : Running) (hrunning : service.running = some running)
    (hasking : running.batch.stage.Asking service.tables) : Due picked service []
  | gone (pauses : List Duration)
    (hphase : service.worker.phase = .leaving ∨ service.worker.phase = .exited) :
    Due picked service pauses

/-- How a move bears on the pauses that are due: none is needed any more, the loop asks again when none
is left, or one of them may have been made. -/
inductive Paying (picked : List QueuedTask) (service : Service κ) (move : Move κ)
    (after : Service κ) (pauses : List Duration) : Prop where
  | removed (hremoves : Turn.Removes ⟨service, move, after⟩ picked)
  | asked (hquestion : (Turn.mk service move after).question? ≠ none) (hnone : pauses = [])
  | due (rest : List Duration) (hquestion : (Turn.mk service move after).question? = none)
    (hgrows : Grows service after) (hdue : Due picked after rest)
    (hpauses : pauses = (Turn.mk service move after).pause?.toList ++ rest)

/-- Where a stop was asked for the loop is gone, and elsewhere it goes on. -/
theorem Due.of_unlessStopped {worker : Worker κ} {pauses : List Duration} {next : Phase κ}
    (hworker : after.worker = worker.unlessStopped next)
    (hdue : after.worker.phase = next → Due picked after pauses) : Due picked after pauses := by
  cases hstop : worker.stopRequested with
  | true => exact .gone pauses (.inl (by simp [hworker, Worker.unlessStopped, hstop]))
  | false => exact hdue (by simp [hworker, Worker.unlessStopped, hstop])

/-- What is due stays so where the loop is left alone. -/
theorem Due.aside {pauses : List Duration} (h : Due picked service pauses)
    (haside : Aside service after) : Due picked after pauses := by
  cases h with
  | unsettled hunsettled =>
    rw [← haside.policy]
    apply Due.unsettled
    rcases hunsettled with ⟨running, hrunning, hstage⟩ | hfailed
    · exact .inl ⟨running, haside.running.trans hrunning, hstage⟩
    · exact .inr (haside.phase.trans hfailed)
  | charged delay hphase => exact .charged delay (by rwa [haside.phase])
  | rested hphase => exact .rested (by rwa [haside.phase])
  | asking running hrunning hasking =>
    obtain ⟨rows, htasks, -⟩ := haside.grows
    have hmore : service.tables.tasks ⊆ after.tables.tasks := by simp [htasks]
    exact .asking running (haside.running.trans hrunning) (hasking.mono hmore)
  | gone pauses hphase => exact .gone pauses (by rwa [haside.phase])

/-- Without a question and a pause, what is due is due afterwards. -/
theorem Paying.of_quiet {pauses : List Duration}
    (hquestion : (Turn.mk service move after).question? = none)
    (hpause : (Turn.mk service move after).pause? = none) (hgrows : Grows service after)
    (hdue : Due picked after pauses) : Paying picked service move after pauses :=
  .due pauses hquestion hgrows hdue (by rw [hpause]; rfl)

/-- Where the loop is left alone, what is due is due afterwards. -/
theorem Due.paying_of_aside {pauses : List Duration} (h : Due picked service pauses)
    (hbatch : move ≠ .stepBatch) (hpause : move ≠ .event .pause) (haside : Aside service after) :
    Paying picked service move after pauses :=
  .of_quiet (Turn.question?_eq_none hbatch) (Turn.pause?_eq_none hpause) haside.grows (h.aside haside)

/-- Where the loop takes a step that is not a pause, what is due is due afterwards. -/
theorem Paying.of_event {event : Event κ} {worker : Worker κ} {pauses : List Duration}
    (hpause : Move.event event ≠ .event .pause)
    (hdue : Due picked ((service.turn event).withWorker worker) pauses) :
    Paying picked service (.event event) ((service.turn event).withWorker worker) pauses :=
  .of_quiet (Turn.question?_eq_none nofun) (Turn.pause?_eq_none hpause)
    (service.grows_turn event worker) hdue

/-- An unsettled question comes to its end, or to the pause for a failure. -/
theorem Looping.paying_of_unsettled (h : service.Looping) (hact : Act service move after)
    (hunsettled : service.Unsettled picked) :
    Paying picked service move after [service.worker.policy.delay] := by
  have hquestion : (Turn.mk service move after).question? = none := hunsettled.question?_eq_none h
  have hpause : (Turn.mk service move after).pause? = none := hunsettled.pause?_eq_none h
  cases h.settling hact hunsettled with
  | removed hremoves hshrinks => exact .removed hremoves
  | unsettled hgrows hunsettled hpolicy =>
    have hdue := Due.unsettled hunsettled
    rw [hpolicy] at hdue
    exact .of_quiet hquestion hpause hgrows hdue
  | charged hgrows hphase hfailures =>
    exact .of_quiet hquestion hpause hgrows (.charged _ (.inl hphase))

/-- A failure that is counted is followed by its pause. -/
theorem Looping.paying_of_charged (h : service.Looping) (hact : Act service move after)
    {delay : Duration}
    (hphase : service.worker.phase = .charged delay ∨ service.worker.phase = .pausing delay) :
    Paying picked service move after [delay] := by
  have hidle : service.worker.phase.idle = true := by
    rcases hphase with hphase | hphase <;> rw [hphase] <;> rfl
  rcases h.act_of_idle hact hidle with
    ⟨hbatch, hpause, haside⟩ | ⟨event, worker, rfl, hloop, rfl⟩
  · exact (Due.charged delay hphase).paying_of_aside hbatch hpause haside
  · cases hloop with
    | checkBeforePause counted hcharged =>
      obtain rfl : counted = delay := by simpa [hcharged] using hphase
      exact .of_event nofun (.of_unlessStopped rfl fun hpausing => .charged counted (.inr hpausing))
    | pause counted hpausing =>
      obtain rfl : counted = delay := by simpa [hpausing] using hphase
      refine .due [] (Turn.question?_eq_none nofun) (.of_eq rfl rfl) (.rested (.inl rfl)) ?_
      simp [Turn.pause?, hpausing]
    | _ => simp_all

/-- After its pause a loop that is supplied goes on to ask. -/
theorem Looping.paying_of_rested (h : service.Looping) (hsupplied : service.Supplied)
    (hact : Act service move after)
    (hphase : service.worker.phase = .rested ∨ service.worker.phase = .ready) :
    Paying picked service move after [] := by
  have hidle : service.worker.phase.idle = true := by
    rcases hphase with hphase | hphase <;> rw [hphase] <;> rfl
  rcases h.act_of_idle hact hidle with
    ⟨hbatch, hpause, haside⟩ | ⟨event, worker, rfl, hloop, rfl⟩
  · exact (Due.rested hphase).paying_of_aside hbatch hpause haside
  · cases hloop with
    | checkAfterPause hrested =>
      exact .of_event nofun (.of_unlessStopped rfl fun hready => .rested (.inr hready))
    | beginWork hready =>
      obtain ⟨place, hplace, hinstalled⟩ := hsupplied.apt.equipped
      have hasking : (service.begun .loop).batch.stage.Asking service.tables := by
        simp only [begun, Scheduler.beginBatch, hinstalled]
        exact Stage.asking_first hsupplied.apt.fitting hsupplied.tasks
      exact .of_event nofun (.asking _ rfl hasking)
    | _ => simp_all

/-- A batch that is going to ask does so before anything else comes of it. -/
theorem Looping.paying_of_asking (h : service.Looping) (hact : Act service move after)
    {running : Running} (hrunning : service.running = some running)
    (hasking : running.batch.stage.Asking service.tables) :
    Paying picked service move after [] := by
  have hcarries := h.carries running hrunning
  have hsource := (hcarries.unasked hasking.unasked).2
  cases h.act_of_running hact hrunning with
  | aside move after hbatch hpause haside =>
    exact (Due.asking running hrunning hasking).paying_of_aside hbatch hpause haside
  | ended ending worker hending =>
    rw [hending] at hasking
    exact hasking.elim
  | step source source' stage tables hstep =>
    rcases hstep.asking h.sound h.roomy hasking with ⟨asked, hresolving⟩ | ⟨hnext, heq⟩
    · have hasks : (Turn.mk service .stepBatch
          (service.withStage running stage tables source')).question? = some asked :=
        Turn.question?_eq_some_iff.mpr
          ⟨rfl, running, hrunning, hcarries.consumer, hresolving, hsource⟩
      exact .asked (Option.ne_none_iff_exists'.mpr ⟨asked, hasks⟩) rfl
    · by_cases hquestion : (Turn.mk service .stepBatch
          (service.withStage running stage tables source')).question? = none
      · exact .of_quiet hquestion rfl (.of_eq (congrArg Tables.tasks heq) rfl) (.asking _ rfl hnext)
      · exact .asked hquestion rfl
  | lost hlost => exact absurd hsource (Nat.not_lt_of_le hlost)

/-- A loop that is gone does nothing any more. -/
theorem Looping.paying_of_gone (h : service.Looping) (hact : Act service move after)
    (pauses : List Duration)
    (hphase : service.worker.phase = .leaving ∨ service.worker.phase = .exited) :
    Paying picked service move after pauses := by
  have hidle : service.worker.phase.idle = true := by
    rcases hphase with hphase | hphase <;> rw [hphase] <;> rfl
  rcases h.act_of_idle hact hidle with
    ⟨hbatch, hpause, haside⟩ | ⟨event, worker, rfl, hloop, rfl⟩
  · exact (Due.gone pauses hphase).paying_of_aside hbatch hpause haside
  · cases hloop with
    | leave => exact .of_event nofun (.gone pauses (.inr rfl))
    | _ => simp_all

/-- What is due is paid by one move after another. -/
theorem Looping.paying (h : service.Looping) (hsupplied : service.Supplied)
    (hact : Act service move after) {pauses : List Duration} (hdue : Due picked service pauses) :
    Paying picked service move after pauses := by
  cases hdue with
  | unsettled hunsettled => exact h.paying_of_unsettled hact hunsettled
  | charged delay hphase => exact h.paying_of_charged hact hphase
  | rested hphase => exact h.paying_of_rested hsupplied hact hphase
  | asking running hrunning hasking => exact h.paying_of_asking hact hrunning hasking
  | gone pauses hphase => exact h.paying_of_gone hact pauses hphase

/-- The turns of a sequence of moves, as far as they can happen. -/
def turns (service : Service κ) : List (Move κ) → List (Turn κ)
  | [] => []
  | move :: moves =>
    match service.step move with
    | some after => ⟨service, move, after⟩ :: after.turns moves
    | none => []

variable {moves : List (Move κ)} {turn : Turn κ} {rest : List (Turn κ)}

/-- The first turn is that of the first move, and the others are the turns of the other moves. -/
theorem turns_eq_cons (h : service.turns moves = turn :: rest) :
    ∃ move after later, turn = ⟨service, move, after⟩ ∧ moves = move :: later ∧
      Step service move after ∧ after.turns later = rest := by
  cases moves with
  | nil => cases h
  | cons move later =>
    rw [turns] at h
    split at h
    · rename_i after hstep
      obtain ⟨rfl, hrest⟩ := List.cons.inj h
      exact ⟨move, after, later, rfl, rfl, .of_step hstep, hrest⟩
    · cases h

/-- Every move of a run has its turn. -/
theorem map_move_turns (hrun : service.run moves = some after) :
    (service.turns moves).map Turn.move = moves := by
  induction moves generalizing service with
  | nil => rfl
  | cons move moves ih =>
    rw [run_cons] at hrun
    obtain ⟨next, hnext, hrun⟩ := Option.bind_eq_some_iff.mp hrun
    rw [turns, hnext, List.map_cons, ih hrun]

/-- At any turn the loop has the queue for itself, and goes on from there. -/
theorem Looping.at_turn (h : service.Looping) (hleaves : ∀ move ∈ moves, move.leavesQueue = true)
    {before : List (Turn κ)} (hturns : service.turns moves = before ++ turn :: rest) :
    turn.before.Looping ∧ Step turn.before turn.move turn.after ∧ turn.move.leavesQueue = true ∧
      ∃ later, (∀ move ∈ later, move.leavesQueue = true) ∧ turn.after.turns later = rest := by
  induction before generalizing service moves with
  | nil =>
    obtain ⟨move, after, later, rfl, rfl, hstep, hrest⟩ := turns_eq_cons hturns
    obtain ⟨hmove, hlater⟩ := List.forall_mem_cons.mp hleaves
    exact ⟨h, hstep, hmove, later, hlater, hrest⟩
  | cons first before ih =>
    obtain ⟨move, after, later, -, rfl, hstep, hrest⟩ := turns_eq_cons hturns
    obtain ⟨hmove, hlater⟩ := List.forall_mem_cons.mp hleaves
    exact ih (h.step hstep hmove) hlater hrest

/-- The turns of a loop that has the queue for itself tell exactly what is asked. -/
theorem Looping.exact (h : service.Looping) (hleaves : ∀ move ∈ moves, move.leavesQueue = true)
    (hturn : turn ∈ service.turns moves) : turn.Exact := by
  obtain ⟨before, later, hturns⟩ := List.append_of_mem hturn
  obtain ⟨hlooping, hstep, -⟩ := h.at_turn hleaves hturns
  exact hstep.exact fun running hrunning => (hlooping.carries running hrunning).consumer

/-- Between a question and the next one either a task is taken off the queue, or the pauses are those
that are due. -/
theorem Looping.paid (h : service.Looping) (hsupplied : service.Supplied)
    (hleaves : ∀ move ∈ moves, move.leavesQueue = true) {pauses : List Duration}
    (hdue : Due picked service pauses) {between later : List (Turn κ)} {second : Turn κ}
    (hturns : service.turns moves = between ++ second :: later) (hsecond : second.question? ≠ none)
    (hnone : ∀ turn ∈ between, turn.question? = none) :
    (∃ turn ∈ between, turn.Removes picked) ∨ between.filterMap Turn.pause? = pauses := by
  -- By induction on the turns in between, each of which pays for some of what is due.
  induction between generalizing service moves pauses with
  | nil =>
    obtain ⟨move, after, moves, rfl, rfl, hstep, -⟩ := turns_eq_cons hturns
    have hact := h.act hstep (hleaves move List.mem_cons_self)
    cases h.paying hsupplied hact hdue with
    | removed hremoves => exact absurd hremoves.question?_eq_none hsecond
    | asked hquestion hnil => exact .inr hnil.symm
    | due rest hquestion => exact absurd hquestion hsecond
  | cons turn between ih =>
    obtain ⟨move, after, moves, rfl, rfl, hstep, hrest⟩ := turns_eq_cons hturns
    obtain ⟨hmove, hleaves⟩ := List.forall_mem_cons.mp hleaves
    obtain ⟨hquiet, hnone⟩ := List.forall_mem_cons.mp hnone
    cases h.paying hsupplied (h.act hstep hmove) hdue with
    | removed hremoves => exact .inl ⟨_, List.mem_cons_self, hremoves⟩
    | asked hquestion => exact absurd hquiet hquestion
    | due rest hquestion hgrows hdue hpauses =>
      rcases ih (h.step hstep hmove) (hsupplied.step hstep hgrows) hleaves hdue hrest hnone with
        ⟨turn, hturn, hremoves⟩ | hpaid
      · exact .inl ⟨turn, List.mem_cons_of_mem _ hturn, hremoves⟩
      · right
        rw [hpauses, ← hpaid, List.filterMap_cons]
        cases (Turn.mk service move after).pause? <;> rfl

/-- Between two questions of the loop, one after the other, a task of the first is taken off the queue,
or the loop pauses once, with the delay that was next at the first. -/
theorem Looping.paced (h : service.Looping) (hleaves : ∀ move ∈ moves, move.leavesQueue = true)
    {before between later : List (Turn κ)} {first second : Turn κ}
    (hturns : service.turns moves = before ++ first :: (between ++ second :: later))
    (hfirst : first.question? = some picked) (hsecond : second.question? ≠ none)
    (hnone : ∀ turn ∈ between, turn.question? = none) :
    (∃ turn ∈ between, turn.Removes picked) ∨
      between.filterMap Turn.pause? = [first.before.worker.policy.delay] := by
  obtain ⟨hlooping, hstep, hmove, moves, hleaves, hrest⟩ := h.at_turn hleaves hturns
  obtain ⟨hsupplied, hgrows, hunsettled, hworker⟩ :=
    hlooping.unsettled_of_question (hlooping.act hstep hmove) hfirst
  have hdue := Due.unsettled hunsettled
  rw [hworker] at hdue
  exact (hlooping.step hstep hmove).paid (hsupplied.step hstep hgrows) hleaves hdue hrest hsecond hnone

/-- The questions so far are paid for by rows that are off the queue and failures that were counted,
all but one that is unsettled. -/
def Balanced (base asked : Nat) (service : Service κ) : Prop :=
  asked + service.tables.tasks.length ≤
    base + service.issued.length + service.worker.stats.failures ∨
  service.tables.tasks ≠ [] ∧ (∃ picked, service.Unsettled picked) ∧
    asked + service.tables.tasks.length ≤
      base + service.issued.length + service.worker.stats.failures + 1

/-- An unsettled question is paid for by a row that is still in the queue. -/
theorem Balanced.le {base asked : Nat} (h : service.Balanced base asked) :
    asked ≤ base + service.issued.length + service.worker.stats.failures := by
  rcases h with hle | ⟨htasks, -, hle⟩
  · omega
  · have hpos := List.length_pos_iff.mpr htasks
    omega

/-- A question is open to be paid for, and it is the only one. -/
theorem Balanced.of_question {base asked : Nat} (h : service.Balanced base asked)
    (hlooping : service.Looping) (hact : Act service move after)
    (hquestion : (Turn.mk service move after).question? = some picked) :
    after.Balanced base (asked + 1) := by
  obtain ⟨hsupplied, hgrows, hunsettled, hworker⟩ := hlooping.unsettled_of_question hact hquestion
  have hlength := hgrows.length_eq
  rcases h with hle | ⟨-, ⟨other, hopen⟩, -⟩
  · refine .inr ⟨hgrows.tasks_ne_nil hsupplied.tasks, ⟨picked, hunsettled⟩, ?_⟩
    rw [hworker]
    omega
  · -- A second question does not come while one is unsettled.
    cases hquestion.symm.trans (hopen.question?_eq_none hlooping)

/-- Where nothing is asked, an unsettled question stays so or is paid for. -/
theorem Balanced.of_quiet {base asked : Nat} (h : service.Balanced base asked)
    (hlooping : service.Looping) (hact : Act service move after) : after.Balanced base asked := by
  have hfailures := hact.failures_le
  rcases h with hle | ⟨hsome, ⟨picked, hunsettled⟩, hle⟩
  · left
    rcases hlooping.grows_or_shrinks hact with hgrows | ⟨hfewer, hissued⟩
    · have hlength := hgrows.length_eq
      omega
    · rw [hissued]
      omega
  · cases hlooping.settling hact hunsettled with
    | removed hremoves hshrinks =>
      left
      rw [hshrinks.issued]
      have hfewer := hshrinks.tasks
      omega
    | unsettled hgrows hunsettled hpolicy =>
      have hlength := hgrows.length_eq
      exact .inr ⟨hgrows.tasks_ne_nil hsome, ⟨picked, hunsettled⟩, by omega⟩
    | charged hgrows hphase hmore =>
      have hlength := hgrows.length_eq
      left
      omega

/-- Every run keeps the balance. -/
theorem Balanced.run {base asked : Nat} (h : service.Balanced base asked) (hlooping : service.Looping)
    (hrun : service.run moves = some after) (hleaves : ∀ move ∈ moves, move.leavesQueue = true) :
    after.Balanced base (asked + (service.turns moves).countP (·.question?.isSome)) := by
  induction moves generalizing service asked with
  | nil =>
    cases hrun
    exact h
  | cons move moves ih =>
    rw [run_cons] at hrun
    obtain ⟨next, hnext, hrun⟩ := Option.bind_eq_some_iff.mp hrun
    obtain ⟨hmove, hleaves⟩ := List.forall_mem_cons.mp hleaves
    have hstep : Step service move next := .of_step hnext
    have hact := hlooping.act hstep hmove
    have hlooping' := hlooping.step hstep hmove
    rw [turns, hnext, List.countP_cons]
    cases hquestion : (Turn.mk service move next).question? with
    | none =>
      have hlater := ih (h.of_quiet hlooping hact) hlooping' hrun hleaves
      simpa using hlater
    | some picked =>
      have hlater := ih (h.of_question hlooping hact hquestion) hlooping' hrun hleaves
      simpa [Nat.add_assoc, Nat.add_comm, Nat.add_left_comm] using hlater

/-- Every move of a run has its turn, and the turns tell exactly what the sources are asked. A loop that
is the only one to take tasks off the queue does not ask again before it has taken one of the tasks
off that it asked about last, or has paused once, with the delay that was next when it asked. So it
has asked at most as many times as there were rows in the queue at the beginning, rows queued since
and failures counted. -/
theorem questions_paced (hbegins : service.Begins) (htables : service.tables.Reachable)
    (hrun : service.run moves = some after) (hleaves : ∀ move ∈ moves, move.leavesQueue = true) :
    (service.turns moves).map Turn.move = moves ∧
    (∀ turn ∈ service.turns moves, turn.Exact) ∧
    (∀ before first between second later picked,
      service.turns moves = before ++ first :: (between ++ second :: later) →
      first.question? = some picked → second.question? ≠ none →
      (∀ turn ∈ between, turn.question? = none) →
      (∃ turn ∈ between, turn.Removes picked) ∨
        between.filterMap Turn.pause? = [first.before.worker.policy.delay]) ∧
    (service.turns moves).countP (·.question?.isSome) ≤
      service.tables.tasks.length + after.issued.length + after.worker.stats.failures := by
  have hlooping := hbegins.looping htables
  have hbalanced : service.Balanced service.tables.tasks.length 0 := .inl (by omega)
  refine ⟨map_move_turns hrun, fun turn => hlooping.exact hleaves, ?_, ?_⟩
  · intro before first between second later picked hturns hfirst hsecond hnone
    exact hlooping.paced hleaves hturns hfirst hsecond hnone
  · have hle := (hbalanced.run hlooping hrun hleaves).le
    rwa [Nat.zero_add] at hle

/-- The loop begins a batch and takes it up to the reply of its source. -/
def upToReply : List (Move Unit) := .event .beginWork :: List.replicate 6 .stepBatch

/-- The source is out of order: the loop asks, pauses, and asks again about the same task. -/
def refusedTwice : List (Move Unit) :=
  List.flatten
    [launched (.failing "out of order"), [.change (.addShop firstShop), .enqueue [firstRequest]],
      upToReply,
      [.event (.endWork false), .event .countFailure, .announce 0, .event .checkBeforePause,
        .event .pause, .event .checkAfterPause],
      upToReply]

theorem questions_paced_refusedTwice :
    ∃ after, unconfigured.run refusedTwice = some after ∧ after.issued.length = 1 ∧
      after.worker.stats.failures = 1 ∧
      (unconfigured.turns refusedTwice).countP (·.question?.isSome) = 2 ∧
      (unconfigured.turns refusedTwice).filterMap Turn.pause? =
        [unconfigured.worker.policy.delay] ∧
      2 ≤ after.issued.length + after.worker.stats.failures := by
  have hview : (unconfigured.run refusedTwice).map (fun after =>
      (after.issued.length, after.worker.stats.failures)) = some (1, 1) := by cbv
  have hcount : (unconfigured.turns refusedTwice).countP (·.question?.isSome) = 2 := by cbv
  have hpauses : (unconfigured.turns refusedTwice).filterMap Turn.pause? =
      [unconfigured.worker.policy.delay] := by cbv
  obtain ⟨after, hrun, hafter⟩ := Option.map_eq_some_iff.mp hview
  obtain ⟨hissued, hfailures⟩ := Prod.mk.inj hafter
  have hleaves : ∀ move ∈ refusedTwice, move.leavesQueue = true := by decide
  obtain ⟨-, -, -, hle⟩ := questions_paced begins_unconfigured .empty hrun hleaves
  have hempty : unconfigured.tables.tasks.length = 0 := rfl
  rw [hcount, hempty, Nat.zero_add] at hle
  exact ⟨after, hrun, hissued, hfailures, hcount, hpauses, hle⟩

end Service

end ShopValidation
