import ShopValidation.Proofs.Worker.Lifecycle

/-!
# When idle callbacks are called

A callback is left for the next time the loop finds no work. The loop asks for work, and takes the
waiting callbacks in a critical section of its own after the answer. A callback that is left between
the two is taken with the others, although the question was asked before it.

The main statement says exactly which callbacks are called on the strength of a question that was
begun after they were left: all of them but those. Callbacks carry the number of the event by which
they were left, so that equal ones are told apart.
-/

namespace ShopValidation

/-- A callback with the number of the event by which it was left. -/
structure Ticket (κ : Type) where
  number : Nat
  callback : κ
deriving DecidableEq

variable {κ : Type}

/-- Every callback carries the number of the event by which it is left. -/
def Ticketed (events : List (Event (Ticket κ))) : Prop :=
  ∀ (i : Nat) (ticket : Ticket κ), events[i]? = some (.whenIdle ticket) → ticket.number = i

/-- Whether an event that leaves a callback gives it a number. -/
def Event.numbers (number : Nat) : Event (Ticket κ) → Bool
  | .whenIdle ticket => ticket.number == number
  | _ => true

/-- One reading of the events is enough to see whether they are ticketed. -/
theorem all_numbers_iff (events : List (Event (Ticket κ))) :
    (events.zipIdx.all fun entry => entry.1.numbers entry.2) = true ↔ Ticketed events := by
  rw [List.all_eq_true]
  constructor
  · intro h i ticket hi
    exact beq_iff_eq.mp (h (.whenIdle ticket, i) (List.mem_zipIdx_iff_getElem?.mpr hi))
  · rintro h ⟨event, i⟩ hmem
    have hi := List.mem_zipIdx_iff_getElem?.mp hmem
    cases event with
    | whenIdle ticket => exact beq_iff_eq.mpr (h i ticket hi)
    | _ => rfl

instance (events : List (Event (Ticket κ))) : Decidable (Ticketed events) :=
  decidable_of_iff _ (all_numbers_iff events)

/-- A beginning of ticketed events is ticketed. -/
theorem Ticketed.of_concat {past : List (Event (Ticket κ))} {event : Event (Ticket κ)}
    (h : Ticketed (past ++ [event])) : Ticketed past := by
  intro i ticket hi
  apply h i ticket
  rw [List.getElem?_append_left (List.getElem?_eq_some_iff.mp hi).1, hi]

/-- Whether a question for work is both begun and answered with no in these events. The flag says
whether a question is open that was begun before them and counts as well. -/
def seesIdle (asked : Bool) : List (Event κ) → Bool
  | [] => false
  | .beginProbe :: rest => seesIdle true rest
  | .endProbe hasWork :: rest => asked && hasWork == some false || seesIdle false rest
  | _ :: rest => seesIdle asked rest

/-- The answer of the first question that ends in these events. -/
def firstAnswer? : List (Event κ) → Option (Option Bool)
  | [] => none
  | .endProbe hasWork :: _ => some hasWork
  | _ :: rest => firstAnswer? rest

/-- Whether a callback that is left in a phase, with these events after it, is left too late: the
question whose answer makes the loop take it was asked before. -/
def LeftTooLate (phase : Phase κ) (since : List (Event κ)) : Prop :=
  phase = .collecting ∨ phase = .probing .first ∧ firstAnswer? since = some (some false)

/-- What a waiting callback has seen of the questions for work since it was left. -/
inductive Standing where
  /-- No question that was begun since is open. -/
  | waiting
  /-- A question that was begun since is open. -/
  | asked
  /-- A question that was begun since was answered with no. -/
  | seen
  /-- The question is open that was open when the callback was left. -/
  | doubtful
  /-- The callbacks are taken next, because of an earlier question. -/
  | late
  /-- A question was begun while the callback should have been taken. -/
  | lost
deriving DecidableEq

namespace Standing

/-- The standing of a callback that is left in a phase. -/
def ofPhase : Phase κ → Standing
  | .probing .first => .doubtful
  | .collecting => .late
  | _ => .waiting

/-- The standing after one more event. -/
def next (standing : Standing) (event : Event κ) : Standing :=
  match standing, event with
  | .waiting, .beginProbe => .asked
  | .asked, .endProbe (some false) => .seen
  | .asked, .endProbe _ => .waiting
  | .doubtful, .endProbe (some false) => .late
  | .doubtful, .endProbe _ => .waiting
  | .doubtful, .beginProbe => .lost
  | .late, .beginProbe => .lost
  | _, _ => standing

/-- The standing after events. -/
def after (standing : Standing) (events : List (Event κ)) : Standing := events.foldl next standing

@[simp] theorem after_nil (standing : Standing) : standing.after ([] : List (Event κ)) = standing :=
  rfl

@[simp] theorem after_cons (standing : Standing) (event : Event κ) (events : List (Event κ)) :
    standing.after (event :: events) = (standing.next event).after events := rfl

/-- One more event is one more step. -/
theorem after_concat (standing : Standing) (events : List (Event κ)) (event : Event κ) :
    standing.after (events ++ [event]) = (standing.after events).next event := by
  simp [after]

/-- Only the questions for work change a standing. -/
theorem next_eq (standing : Standing) (event : Event κ) (hbegin : event ≠ .beginProbe)
    (hend : ∀ hasWork, event ≠ .endProbe hasWork) : standing.next event = standing := by
  unfold next
  split <;> simp_all

/-- A callback that has seen a question answered stays so. -/
theorem seen_after (events : List (Event κ)) : seen.after events = seen := by
  induction events with
  | nil => rfl
  | cons event events ih => exact ih

/-- A callback that was passed over stays so. -/
theorem lost_after (events : List (Event κ)) : lost.after events = lost := by
  induction events with
  | nil => rfl
  | cons event events ih => exact ih

/-- From a phase that is not too late, a callback never becomes late, and it has seen a question
answered only if there was one. -/
theorem waiting_after (events : List (Event κ)) :
    (waiting.after events ≠ .late ∧ (waiting.after events = .seen → seesIdle false events = true)) ∧
      (asked.after events ≠ .late ∧ (asked.after events = .seen → seesIdle true events = true)) := by
  induction events with
  | nil => simp
  | cons event events ih =>
    cases event with
    | beginProbe => exact ⟨ih.2, ih.2⟩
    | endProbe hasWork =>
      rcases hasWork with _ | _ | _
      · exact ⟨ih.1, ih.1⟩
      · refine ⟨⟨ih.1.1, fun h => ?_⟩, ?_, fun _ => rfl⟩
        · exact ih.1.2 h
        · exact (seen_after events).trans_ne nofun
      · exact ⟨ih.1, ih.1⟩
    | _ => exact ih

/-- A callback that is late has seen no question begun. -/
theorem late_after (events : List (Event κ)) :
    late.after events ≠ .seen ∧ (late.after events = .late → seesIdle false events = false) := by
  induction events with
  | nil => simp [seesIdle]
  | cons event events ih =>
    cases event with
    | beginProbe =>
      have hlost : late.after (.beginProbe :: events) = .lost := lost_after events
      simp [hlost]
    | _ => exact ih

/-- What the standing says about a callback left while the loop asks the first question. -/
theorem doubtful_after (events : List (Event κ)) :
    (doubtful.after events = .seen →
      seesIdle false events = true ∧ firstAnswer? events ≠ some (some false)) ∧
    (doubtful.after events = .late →
      seesIdle false events = false ∧ firstAnswer? events = some (some false)) := by
  induction events with
  | nil => simp
  | cons event events ih =>
    cases event with
    | beginProbe =>
      have hlost : doubtful.after (.beginProbe :: events) = .lost := lost_after events
      simp [hlost]
    | endProbe hasWork =>
      rcases hasWork with _ | _ | _
      · exact ⟨fun h => ⟨(waiting_after events).1.2 h, nofun⟩,
          fun h => absurd h (waiting_after events).1.1⟩
      · exact ⟨fun h => absurd h (late_after events).1, fun h => ⟨(late_after events).2 h, rfl⟩⟩
      · exact ⟨fun h => ⟨(waiting_after events).1.2 h, nofun⟩,
          fun h => absurd h (waiting_after events).1.1⟩
    | _ => exact ih

/-- A callback that has seen a question answered was not left too late. -/
theorem seesIdle_of_seen {phase : Phase κ} {since : List (Event κ)}
    (h : (ofPhase phase).after since = .seen) :
    seesIdle false since = true ∧ ¬LeftTooLate phase since := by
  unfold ofPhase at h
  split at h
  · obtain ⟨hsees, hanswer⟩ := (doubtful_after since).1 h
    exact ⟨hsees, by simp [LeftTooLate, hanswer]⟩
  · exact absurd h (late_after since).1
  · refine ⟨(waiting_after since).1.2 h, ?_⟩
    simp_all [LeftTooLate]

/-- A callback that is late was left too late, and has seen no question answered. -/
theorem leftTooLate_of_late {phase : Phase κ} {since : List (Event κ)}
    (h : (ofPhase phase).after since = .late) :
    seesIdle false since = false ∧ LeftTooLate phase since := by
  unfold ofPhase at h
  split at h
  · obtain ⟨hsees, hanswer⟩ := (doubtful_after since).2 h
    exact ⟨hsees, .inr ⟨rfl, hanswer⟩⟩
  · exact ⟨(late_after since).2 h, .inl rfl⟩
  · exact absurd h (waiting_after since).1.1

/-- The standings that a waiting callback can have in a phase. -/
def Fits (phase : Phase κ) : Standing → Prop
  | .waiting => phase ≠ .probing .first ∧ phase ≠ .collecting
  | .asked => ∃ round, phase = .probing round
  | .seen => True
  | .doubtful => phase = .probing .first
  | .late => phase = .collecting
  | .lost => False

/-- A callback fits the phase in which it is left. -/
theorem fits_ofPhase (phase : Phase κ) : (ofPhase phase).Fits phase := by
  unfold ofPhase
  split
  · rfl
  · rfl
  · exact ⟨‹_›, ‹_›⟩

/-- The callbacks that are taken have seen a question answered, or are late. -/
theorem Fits.seen_or_late {standing : Standing} (h : standing.Fits (.collecting : Phase κ)) :
    standing = .seen ∨ standing = .late := by
  cases standing <;> simp_all [Fits]

end Standing

/-- The callbacks that are taken and not called yet. -/
def Phase.taken : Phase κ → List κ
  | .flushing rest | .calling rest => rest
  | _ => []

/-- Whether no question is open and no callbacks are about to be taken. -/
def Phase.Quiet (phase : Phase κ) : Prop := (∀ round, phase ≠ .probing round) ∧ phase ≠ .collecting

/-- A choice between quiet phases is quiet. -/
theorem Phase.Quiet.ite {c : Prop} [Decidable c] {a b : Phase κ} (ha : a.Quiet) (hb : b.Quiet) :
    (if c then a else b).Quiet := by
  split
  · exact ha
  · exact hb

/-- Between quiet phases a callback keeps its standing. -/
theorem Standing.Fits.of_quiet {phase phase' : Phase κ} {event : Event κ} {standing : Standing}
    (hfits : standing.Fits phase) (hphase : phase.Quiet) (hphase' : phase'.Quiet)
    (hevent : event ≠ .beginProbe) : (standing.next event).Fits phase' := by
  cases standing with
  | waiting =>
    have hnext : Standing.waiting.next event = .waiting := by
      cases event <;> simp_all [Standing.next]
    rw [hnext]
    exact ⟨hphase'.1 .first, hphase'.2⟩
  | asked => exact absurd hfits.choose_spec (hphase.1 _)
  | seen => trivial
  | doubtful => exact absurd hfits (hphase.1 _)
  | late => exact absurd hfits hphase.2
  | lost => exact hfits.elim

namespace Worker

/-- How a callback stands after a run: it was accepted at the event of its number, and has had its
standing from the phase at that moment and the events since. -/
def StandsAt (w : Worker (Ticket κ)) (past : List (Event (Ticket κ))) (ticket : Ticket κ)
    (standing : Standing) : Prop :=
  past[ticket.number]? = some (.whenIdle ticket) ∧
    ∃ u, w.run (past.take ticket.number) = some u ∧ u.lifecycle = .running ∧
      (Standing.ofPhase u.phase).after (past.drop (ticket.number + 1)) = standing

variable {w v v' : Worker (Ticket κ)} {past : List (Event (Ticket κ))}
  {event : Event (Ticket κ)} {ticket : Ticket κ} {standing : Standing}

/-- One more event moves the standing on. -/
theorem StandsAt.concat (h : w.StandsAt past ticket standing) :
    w.StandsAt (past ++ [event]) ticket (standing.next event) := by
  obtain ⟨hleft, u, hu, hrunning, hafter⟩ := h
  have hlt : ticket.number < past.length := (List.getElem?_eq_some_iff.mp hleft).1
  refine ⟨(List.getElem?_append_left hlt).trans hleft, u, ?_, hrunning, ?_⟩
  · rwa [List.take_append_of_le_length (Nat.le_of_lt hlt)]
  · rw [List.drop_append_of_le_length hlt, Standing.after_concat, hafter]

/-- A callback that is accepted now begins with the standing of the phase. -/
theorem standsAt_concat_whenIdle (hrun : w.run past = some v) (hrunning : v.lifecycle = .running)
    (hnumber : ticket.number = past.length) :
    w.StandsAt (past ++ [.whenIdle ticket]) ticket (Standing.ofPhase v.phase) := by
  refine ⟨by simp [hnumber], v, ?_, hrunning, ?_⟩
  · simpa [hnumber] using hrun
  · simp [hnumber]

/-- Every callback that the worker holds stands where its history puts it. -/
structure Tracked (w : Worker (Ticket κ)) (past : List (Event (Ticket κ)))
    (v : Worker (Ticket κ)) : Prop where
  orderly : v.Orderly
  waiting : ∀ ticket ∈ v.idleCallbacks,
    ∃ standing, w.StandsAt past ticket standing ∧ standing.Fits v.phase
  taken : ∀ ticket ∈ v.phase.taken,
    ∃ standing, w.StandsAt past ticket standing ∧ (standing = .seen ∨ standing = .late)

/-- A step of the loop keeps the standing of every waiting callback fit, unless it takes them. -/
theorem fits_loopStep (hloop : LoopStep v event v') (hcollecting : v.phase ≠ .collecting)
    (hfits : standing.Fits v.phase) : (standing.next event).Fits v'.phase := by
  cases hloop with
  | beginProbe round hphase =>
    rw [hphase] at hfits
    cases standing with
    | waiting => exact ⟨round, rfl⟩
    | seen => trivial
    | asked => exact nomatch hfits.choose_spec
    | doubtful | late | lost => exact nomatch hfits
  | endProbe round hasWork hphase =>
    rw [hphase] at hfits
    cases standing with
    | seen => trivial
    | late | lost => exact nomatch hfits
    | waiting =>
      cases round with
      | first => exact absurd rfl hfits.1
      | second => rcases hasWork with _ | _ | _ <;> exact ⟨nofun, nofun⟩
    | asked =>
      cases round <;> rcases hasWork with _ | _ | _ <;> first | trivial | exact ⟨nofun, nofun⟩
    | doubtful =>
      cases hfits
      rcases hasWork with _ | _ | _
      · exact ⟨nofun, nofun⟩
      · rfl
      · exact ⟨nofun, nofun⟩
  | collect hphase => exact absurd hphase hcollecting
  | endWork | checkAfterWork | stayAwake | awaken | checkBeforePause | checkAfterPause =>
    refine hfits.of_quiet (by simp [Phase.Quiet, *]) (.ite ?_ ?_) nofun <;> simp [Phase.Quiet]
  | _ => exact hfits.of_quiet (by simp [Phase.Quiet, *]) (by simp [Phase.Quiet]) nofun

/-- Outside the taking of callbacks, the loop only works off those it has taken, and it asks no
question meanwhile. -/
theorem mem_taken_loopStep (hloop : LoopStep v event v') (hcollecting : v.phase ≠ .collecting)
    (hmem : ticket ∈ v'.phase.taken) :
    ticket ∈ v.phase.taken ∧ event ≠ .beginProbe ∧ ∀ hasWork, event ≠ .endProbe hasWork := by
  cases hloop with
  | collect hphase => exact absurd hphase hcollecting
  | beginCall callback rest hphase =>
    rw [hphase]
    exact ⟨List.mem_cons_of_mem _ hmem, nofun, nofun⟩
  | endCall rest hphase =>
    rw [hphase]
    exact ⟨hmem, nofun, nofun⟩
  | endWork succeeded => cases succeeded <;> cases hmem
  | endProbe round hasWork => cases round <;> rcases hasWork with _ | _ | _ <;> cases hmem
  | checkAfterWork | stayAwake | awaken | checkBeforePause | checkAfterPause =>
    unfold unlessStopped at hmem
    dsimp only at hmem
    split at hmem <;> cases hmem
  | _ => cases hmem

/-- An event that leaves the loop and its callbacks alone, or drops callbacks, keeps track. -/
theorem Tracked.frame (h : w.Tracked past v) (horderly : v'.Orderly)
    (hcallbacks : v'.idleCallbacks ⊆ v.idleCallbacks) (hphase : v'.phase = v.phase)
    (hbegin : event ≠ .beginProbe) (hend : ∀ hasWork, event ≠ .endProbe hasWork) :
    w.Tracked (past ++ [event]) v' where
  orderly := horderly
  waiting ticket hmem := by
    obtain ⟨standing, hstands, hfits⟩ := h.waiting ticket (hcallbacks hmem)
    have hstill := standing.next_eq event hbegin hend
    exact ⟨standing, hstill ▸ hstands.concat, hphase ▸ hfits⟩
  taken ticket hmem := by
    obtain ⟨standing, hstands, hseen⟩ := h.taken ticket (hphase ▸ hmem)
    have hstill := standing.next_eq event hbegin hend
    exact ⟨standing, hstill ▸ hstands.concat, hseen⟩

/-- Every step of the loop keeps track of the callbacks. -/
theorem Tracked.loopStep (h : w.Tracked past v) (hloop : LoopStep v event v') :
    w.Tracked (past ++ [event]) v' := by
  by_cases hcollecting : v.phase = .collecting
  · -- The waiting callbacks become the taken ones, with the standing that they have.
    obtain ⟨rfl, rfl⟩ := hloop.collect_of_phase hcollecting
    constructor
    · exact h.orderly.loopStep hloop
    · simp
    · intro ticket hmem
      obtain ⟨standing, hstands, hfits⟩ := h.waiting ticket hmem
      have hstill := standing.next_eq (.collect : Event (Ticket κ)) nofun nofun
      rw [hcollecting] at hfits
      exact ⟨standing, hstill ▸ hstands.concat, hfits.seen_or_late⟩
  · constructor
    · exact h.orderly.loopStep hloop
    · intro ticket hmem
      rw [hloop.idleCallbacks_eq hcollecting] at hmem
      obtain ⟨standing, hstands, hfits⟩ := h.waiting ticket hmem
      exact ⟨standing.next event, hstands.concat, fits_loopStep hloop hcollecting hfits⟩
    · intro ticket hmem
      obtain ⟨htaken, hbegin, hend⟩ := mem_taken_loopStep hloop hcollecting hmem
      obtain ⟨standing, hstands, hseen⟩ := h.taken ticket htaken
      have hstill := standing.next_eq event hbegin hend
      exact ⟨standing, hstill ▸ hstands.concat, hseen⟩

/-- Every event keeps track of the callbacks. -/
theorem Tracked.step (h : w.Tracked past v) (hrun : w.run past = some v)
    (hticketed : Ticketed (past ++ [event])) (hstep : Step v event v') :
    w.Tracked (past ++ [event]) v' := by
  have horderly := h.orderly.step hstep
  cases hstep with
  | whenIdle callback hrunning =>
    have hstill (standing : Standing) : standing.next (.whenIdle callback) = standing :=
      standing.next_eq _ nofun nofun
    constructor
    · exact horderly
    · intro ticket hmem
      rcases List.mem_append.mp hmem with hold | hnew
      · obtain ⟨standing, hstands, hfits⟩ := h.waiting ticket hold
        exact ⟨standing, hstill standing ▸ hstands.concat, hfits⟩
      · obtain rfl := List.mem_singleton.mp hnew
        have hnumber := hticketed past.length ticket (by simp)
        exact ⟨_, standsAt_concat_whenIdle hrun hrunning hnumber, Standing.fits_ofPhase v.phase⟩
    · intro ticket hmem
      obtain ⟨standing, hstands, hseen⟩ := h.taken ticket hmem
      exact ⟨standing, hstill standing ▸ hstands.concat, hseen⟩
  | spawn i hstarter =>
    -- There was no thread, so that nothing had been asked or taken.
    have habsent := h.orderly.oneStart.phase_eq_absent hstarter (by decide)
    have hbefore : v.phase.Quiet := by simp [Phase.Quiet, habsent]
    have hafter : (Phase.entering : Phase (Ticket κ)).Quiet := by simp [Phase.Quiet]
    constructor
    · exact horderly
    · intro ticket hmem
      obtain ⟨standing, hstands, hfits⟩ := h.waiting ticket hmem
      exact ⟨standing.next (.spawn i), hstands.concat, hfits.of_quiet hbefore hafter nofun⟩
    · simp [Phase.taken]
  | cancel => exact h.frame horderly (List.nil_subset _) rfl nofun nofun
  | loop event v' hloop => exact h.loopStep hloop
  | _ => exact h.frame horderly (List.Subset.refl _) rfl nofun nofun

/-- After every run of a fresh worker the callbacks stand where their history puts them. -/
theorem Fresh.tracked_run {events : List (Event (Ticket κ))} (h : w.Fresh)
    (hticketed : Ticketed events) (hrun : w.run events = some v) : w.Tracked events v := by
  refine run_induct (P := fun past v => Ticketed past → w.Tracked past v) hrun ?_ ?_ hticketed
  · intro _
    exact ⟨h.orderly, by simp [h.idleCallbacks], by simp [h.phase, Phase.taken]⟩
  · intro past v event v' hpast ih hstep hnext
    exact (ih hnext.of_concat).step hpast hnext hstep

/-- The callback that is called next was accepted at the event of its number. Since then a question
for work has been begun and answered with no, unless and only unless it was left too late. -/
theorem seesIdle_of_called_iff {t : Worker (Ticket κ)} {events : List (Event (Ticket κ))}
    {rest : List (Ticket κ)} (hfresh : w.Fresh) (hticketed : Ticketed events)
    (hrun : w.run events = some t) (hcalled : t.phase = .flushing (ticket :: rest)) :
    ∃ u, w.run (events.take ticket.number) = some u ∧ u.lifecycle = .running ∧
      events[ticket.number]? = some (.whenIdle ticket) ∧
      (seesIdle false (events.drop (ticket.number + 1)) = true ↔
        ¬LeftTooLate u.phase (events.drop (ticket.number + 1))) := by
  have htaken : ticket ∈ t.phase.taken := by simp [hcalled, Phase.taken]
  obtain ⟨standing, ⟨hleft, u, hu, hrunning, hstanding⟩, hseen⟩ :=
    (hfresh.tracked_run hticketed hrun).taken ticket htaken
  refine ⟨u, hu, hrunning, hleft, ?_⟩
  rcases hseen with rfl | rfl
  · obtain ⟨hsees, hlate⟩ := Standing.seesIdle_of_seen hstanding
    exact iff_of_true hsees hlate
  · obtain ⟨hsees, hlate⟩ := Standing.leftTooLate_of_late hstanding
    exact iff_of_false (by simp [hsees]) (not_not_intro hlate)

/-- A new worker that pauses for a minute after a failure. -/
def minutely : Worker κ :=
  { name := "minutely"
    policy := ⟨[.ofSeconds 60], 0, nofun, Nat.zero_lt_one⟩
    clock := { now := .epoch } }

/-- The events of a start, up to the first question for work. -/
def untilFirstProbe : List (Event κ) :=
  [.reserve, .clear 0, .spawn 0, .storeHandle 0, .enter, .beginWork, .endWork true, .countSuccess,
    .checkAfterWork, .rearm, .beginProbe]

/-- A callback that is left while the loop asks, and is told that there is work, waits for a later
question. -/
def leftWhileBusy : List (Event (Ticket Unit)) :=
  untilFirstProbe ++
    [.whenIdle ⟨11, ()⟩, .endProbe (some true), .beginWork, .endWork true, .countSuccess,
      .checkAfterWork, .rearm, .beginProbe, .endProbe (some false), .collect]

/-- A callback that is left after the answer, by a caller who has made work and woken the loop. -/
def leftAfterAnswer : List (Event (Ticket Unit)) :=
  untilFirstProbe ++ [.endProbe (some false), .wakeUp, .whenIdle ⟨13, ()⟩, .collect]

theorem seesIdle_of_called_leftWhileBusy :
    ∃ t u, minutely.run leftWhileBusy = some t ∧ t.phase = .flushing [⟨11, ()⟩] ∧
      minutely.run (leftWhileBusy.take 11) = some u ∧
      (seesIdle false (leftWhileBusy.drop 12) = true ↔
        ¬LeftTooLate u.phase (leftWhileBusy.drop 12)) := by
  have hfresh : (minutely : Worker (Ticket Unit)).Fresh := fresh_mk ..
  have hticketed : Ticketed leftWhileBusy := by decide
  obtain ⟨t, hrun⟩ : ∃ t, minutely.run leftWhileBusy = some t := ⟨_, rfl⟩
  have hcalled : t.phase = .flushing [⟨11, ()⟩] := by
    cases hrun
    rfl
  obtain ⟨u, hu, -, -, hsees⟩ := seesIdle_of_called_iff hfresh hticketed hrun hcalled
  exact ⟨t, u, hrun, hcalled, hu, hsees⟩

theorem not_seesIdle_of_called :
    ¬∀ (w t : Worker (Ticket Unit)) (events : List (Event (Ticket Unit))) (ticket : Ticket Unit)
      (rest : List (Ticket Unit)), w.Fresh → Ticketed events → w.run events = some t →
      t.phase = .flushing (ticket :: rest) →
      seesIdle false (events.drop (ticket.number + 1)) = true := by
  intro h
  have hsees := h minutely _ leftAfterAnswer ⟨13, ()⟩ [] (fresh_mk ..) (by decide) rfl rfl
  exact absurd hsees (by decide)

end Worker

end ShopValidation
