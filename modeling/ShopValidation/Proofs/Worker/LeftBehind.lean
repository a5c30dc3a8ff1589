import ShopValidation.Proofs.Worker.CallbackOrder
import ShopValidation.Proofs.Worker.Joining

/-!
# Callbacks that a stop leaves behind

The loop takes the waiting callbacks where a question for more work is answered with no. It looks for
a stop before it comes there, after its work and around its pauses, and where it finds one it ends
without taking what waits. So a callback that was accepted can be left behind by a stop.

The main statement says which callbacks are called before the thread ends, those after whose
acceptance the loop took the list once more, and that the others are never called.
-/

namespace ShopValidation

variable {κ : Type}

namespace Worker

section Exited

variable {w v v' : Worker κ} {event : Event κ}

/-- A thread that has ended stays so. -/
theorem Step.exited (h : Step v event v') (horderly : v.Orderly) (hexited : v.phase = .exited) :
    v'.phase = .exited := by
  rcases h.loop_or_phase_eq horderly (by simp [hexited]) with hloop | ⟨-, hsame⟩
  · exact absurd hexited hloop.phase_ne_exited
  · exact hsame.trans hexited

/-- It calls nothing. -/
theorem calls_of_exited (hexited : w.phase = .exited) (event : Event κ) : w.calls event = [] := by
  cases event with
  | beginCall => simp [calls, hexited, Phase.taken]
  | _ => rfl

/-- Nothing is called after the thread has ended. -/
theorem along_calls_of_exited {later : List (Event κ)} (horderly : v.Orderly)
    (hexited : v.phase = .exited) (hrun : v.run later = some v') : along calls v later = [] := by
  have hall : v'.Orderly ∧ v'.phase = .exited ∧ along calls v later = [] := by
    refine run_induct
      (P := fun past u => u.Orderly ∧ u.phase = .exited ∧ along calls v past = []) hrun
      ⟨horderly, hexited, rfl⟩ ?_
    intro past u event u' hpast ⟨hu, hstays, hnone⟩ hstep
    refine ⟨hu.step hstep, hstep.exited hu hstays, ?_⟩
    rw [along_concat hpast, hnone, calls_of_exited hstays]
    rfl
  exact hall.2.2

end Exited

variable {w v v' : Worker (Ticket κ)} {past events : List (Event (Ticket κ))}
  {event : Event (Ticket κ)} {ticket : Ticket κ}

/-- The loop has not taken the list since a waiting callback was left, and has since one was that is
taken or called. -/
structure Placed (w : Worker (Ticket κ)) (past : List (Event (Ticket κ))) (v : Worker (Ticket κ)) :
    Prop where
  waiting : ∀ ticket ∈ v.idleCallbacks, .collect ∉ past.drop (ticket.number + 1)
  gone : ∀ ticket ∈ along calls w past ++ v.phase.taken, .collect ∈ past.drop (ticket.number + 1)

/-- A callback that the worker has had was left before. -/
theorem Conserved.number_lt (h : Conserved w past v)
    (hmem : ticket ∈ along calls w past ++ (v.phase.taken ++ v.idleCallbacks)) :
    ticket.number < past.length := by
  rw [h.conserved] at hmem
  exact h.early ticket (List.mem_filter.mp hmem).1

/-- Unless the loop takes the list, every callback stays where it is, is called, or is new. -/
theorem Placed.frame (h : Placed w past v) (hconserved : Conserved w past v)
    (hrun : w.run past = some v) (hticketed : Ticketed (past ++ [event])) (hstep : Step v event v')
    (hevent : event ≠ .collect) : Placed w (past ++ [event]) v' := by
  obtain ⟨htaken, hwaiting⟩ := hstep.taken_waiting_eq hconserved.orderly hevent
  constructor
  · intro ticket hmem
    have hold : ticket ∈ v.idleCallbacks ++ v.accepts event := by
      rw [← hwaiting]
      exact List.mem_append_left _ hmem
    rcases List.mem_append.mp hold with hwaits | hnew
    · have hlt := hconserved.number_lt (List.mem_append_right _ (List.mem_append_right _ hwaits))
      rw [List.drop_append_of_le_length hlt]
      simpa [hevent.symm] using h.waiting ticket hwaits
    · rw [number_of_mem_accepts hticketed hnew]
      simp
  · intro ticket hmem
    rw [along_concat hrun, List.append_assoc, htaken] at hmem
    have hhad : ticket ∈ along calls w past ++ (v.phase.taken ++ v.idleCallbacks) := by
      rw [← List.append_assoc]
      exact List.mem_append_left _ hmem
    rw [List.drop_append_of_le_length (hconserved.number_lt hhad)]
    exact List.mem_append_left _ (h.gone ticket hmem)

/-- Every event keeps track of where the callbacks are. -/
theorem Placed.step (h : Placed w past v) (hconserved : Conserved w past v)
    (hrun : w.run past = some v) (hticketed : Ticketed (past ++ [event])) (hstep : Step v event v') :
    Placed w (past ++ [event]) v' := by
  by_cases hevent : event = .collect
  · subst hevent
    obtain ⟨hnone, htaken, hwaiting⟩ := hstep.collect_eq
    refine ⟨by simp [hwaiting], fun ticket hmem => ?_⟩
    rw [along_concat hrun, htaken, List.append_assoc] at hmem
    have hlt : ticket.number < past.length := hconserved.number_lt (by rwa [hnone])
    rw [List.drop_append_of_le_length hlt]
    exact List.mem_append_right _ List.mem_cons_self
  · exact h.frame hconserved hrun hticketed hstep hevent

/-- After every run of a fresh worker the callbacks are where their history puts them. -/
theorem Fresh.placed_run (h : w.Fresh) (hticketed : Ticketed events) (hrun : w.run events = some v) :
    Placed w events v := by
  refine run_induct (P := fun past v => Ticketed past → Placed w past v) hrun ?_ ?_ hticketed
  · intro _
    constructor <;> simp [h.idleCallbacks, h.phase, along, Phase.taken]
  · intro past v event v' hpast ih hstep hnext
    have hbefore := hnext.of_concat
    exact (ih hbefore).step (h.conserved_run hbefore hpast) hpast hnext hstep

/-- Once the thread has ended, an accepted callback that was not dropped with a start has been called
if the loop took the list after it was accepted, and only then. Nothing is called any more. -/
theorem called_iff_of_exited (h : w.Fresh) (hticketed : Ticketed events)
    (hrun : w.run events = some v) (hexited : v.phase = .exited) (ticket : Ticket κ)
    (haccepted : ticket ∈ along accepts w events)
    (hundropped : ticket.number ∉ (along drops w events).map Ticket.number) :
    (ticket ∈ along calls w events ↔ .collect ∈ events.drop (ticket.number + 1)) ∧
      ∀ later v', v.run later = some v' → along calls w (events ++ later) = along calls w events := by
  have hconserved := h.conserved_run hticketed hrun
  have hplaced := h.placed_run hticketed hrun
  have hall : along calls w events ++ v.idleCallbacks = w.kept events := by
    simpa [hexited, Phase.taken] using hconserved.conserved
  have hkept : ticket ∈ along calls w events ++ v.idleCallbacks := by
    rw [hall]
    exact List.mem_filter.mpr ⟨haccepted, decide_eq_true hundropped⟩
  refine ⟨⟨fun hcalled => ?_, fun hcollect => ?_⟩, fun later v' hlater => ?_⟩
  · exact hplaced.gone ticket (List.mem_append_left _ hcalled)
  · rcases List.mem_append.mp hkept with hcalled | hwaits
    · exact hcalled
    · exact absurd hcollect (hplaced.waiting ticket hwaits)
  · rw [along_append hrun, along_calls_of_exited hconserved.orderly hexited hlater, List.append_nil]

/-- One callback is called, the next is accepted while the loop works, and the worker is stopped. -/
def stoppedAtWork : List (Event (Ticket Unit)) :=
  [.reserve, .clear 0, .spawn 0, .storeHandle 0, .enter, .whenIdle ⟨5, ()⟩, .beginWork,
    .endWork true, .countSuccess, .checkAfterWork, .rearm, .beginProbe, .endProbe (some false),
    .collect, .beginCall, .endCall, .endFlush, .beginProbe, .endProbe (some true), .beginWork,
    .whenIdle ⟨20, ()⟩, .stop, .endWork true, .countSuccess, .checkAfterWork, .leave]

theorem called_iff_of_exited_stoppedAtWork :
    ∃ v, minutely.run stoppedAtWork = some v ∧ v.phase = .exited ∧
      along accepts minutely stoppedAtWork = [⟨5, ()⟩, ⟨20, ()⟩] ∧
      ⟨5, ()⟩ ∈ along calls minutely stoppedAtWork ∧
      ⟨20, ()⟩ ∉ along calls minutely stoppedAtWork := by
  have hfresh : (minutely : Worker (Ticket Unit)).Fresh := fresh_mk ..
  have hticketed : Ticketed stoppedAtWork := by decide
  obtain ⟨v, hrun⟩ : ∃ v, minutely.run stoppedAtWork = some v := ⟨_, rfl⟩
  have hexited : v.phase = .exited := by
    cases hrun
    rfl
  have haccepted : along accepts minutely stoppedAtWork = [⟨5, ()⟩, ⟨20, ()⟩] := rfl
  have hfirst := (called_iff_of_exited hfresh hticketed hrun hexited ⟨5, ()⟩ (by simp [haccepted])
    (by decide)).1
  have hsecond := (called_iff_of_exited hfresh hticketed hrun hexited ⟨20, ()⟩ (by simp [haccepted])
    (by decide)).1
  exact ⟨v, hrun, hexited, haccepted, hfirst.mpr (by decide), mt hsecond.mp (by decide)⟩

theorem not_called_of_exited :
    ¬∀ (w v : Worker (Ticket Unit)) (events : List (Event (Ticket Unit))) (ticket : Ticket Unit),
      w.Fresh → Ticketed events → w.run events = some v → v.phase = .exited →
      ticket ∈ along accepts w events → ticket ∈ along calls w events := by
  intro h
  have hcalled := h minutely _ stoppedAtWork ⟨20, ()⟩ (fresh_mk ..) (by decide) rfl rfl (by decide)
  exact absurd hcalled (by decide)

end Worker

end ShopValidation
