import ShopValidation.Proofs.Worker.IdleCallback

/-!
# Idle callbacks, in order and none twice

Callbacks wait in a list to which callers add. The loop takes the whole list at once and calls what it
took one by one, while further callbacks are added, by callers or by the callbacks themselves. A
claimed start that is given back drops the list.

The main statement follows every callback through this. What was called, what is taken and what
waits, in this order, are at every moment the accepted callbacks in the order of their acceptance,
less those that waited when a start was given back.
-/

namespace ShopValidation

namespace Worker

section Along

variable {κ α : Type} {w v v' : Worker κ} {event : Event κ}

/-- What the events of a run bring about, one after another. -/
def along (f : Worker κ → Event κ → List α) : Worker κ → List (Event κ) → List α
  | _, [] => []
  | w, event :: rest => f w event ++ (w.step event).elim [] (along f · rest)

variable {f : Worker κ → Event κ → List α}

/-- What a run brings about can be cut where the run can. -/
theorem along_append {before : List (Event κ)} (hrun : w.run before = some v)
    (after : List (Event κ)) : along f w (before ++ after) = along f w before ++ along f v after := by
  induction before generalizing w with
  | nil =>
    cases hrun
    rfl
  | cons event rest ih =>
    rw [run_cons] at hrun
    obtain ⟨u, hu, hrest⟩ := Option.bind_eq_some_iff.mp hrun
    simp only [List.cons_append, along, hu, Option.elim_some, ih hrest, List.append_assoc]

/-- One more event adds what it brings about. -/
theorem along_concat {past : List (Event κ)} (hrun : w.run past = some v) (event : Event κ) :
    along f w (past ++ [event]) = along f w past ++ f v event := by
  rw [along_append hrun]
  cases hstep : v.step event <;> simp [along, hstep]

/-- The callback that is accepted by an event, if it is accepted. -/
def accepts (w : Worker κ) : Event κ → List κ
  | .whenIdle callback =>
    match w.whenIdle callback with
    | .ok _ => [callback]
    | .error _ => []
  | _ => []

/-- The callbacks that wait when a claimed start is given back, and are dropped with it. -/
def drops (w : Worker κ) : Event κ → List κ
  | .cancel _ => w.idleCallbacks
  | _ => []

/-- The callback that the loop calls. -/
def calls (w : Worker κ) : Event κ → List κ
  | .beginCall => w.phase.taken.take 1
  | _ => []

/-- A running worker accepts every callback. -/
theorem accepts_of_running (hrunning : w.lifecycle = .running) (callback : κ) :
    w.accepts (.whenIdle callback) = [callback] := by
  simp [accepts, whenIdle, notRunning?, hrunning]

/-- No other worker accepts any. -/
theorem accepts_of_not_running (hrunning : w.lifecycle ≠ .running) (callback : κ) :
    w.accepts (.whenIdle callback) = [] := by
  unfold accepts whenIdle notRunning?
  cases hlife : w.lifecycle <;> simp_all

/-- An event accepts one callback at most, the one that it leaves. -/
theorem eq_whenIdle_of_mem_accepts {callback : κ} (hmem : callback ∈ w.accepts event) :
    event = .whenIdle callback ∧ w.accepts event = [callback] := by
  cases event with
  | whenIdle left =>
    by_cases hrunning : w.lifecycle = .running
    · rw [accepts_of_running hrunning] at hmem ⊢
      obtain rfl := List.mem_singleton.mp hmem
      exact ⟨rfl, rfl⟩
    · rw [accepts_of_not_running hrunning] at hmem
      cases hmem
  | _ => cases hmem

/-- Only what waits is dropped. -/
theorem drops_subset (w : Worker κ) (event : Event κ) : w.drops event ⊆ w.idleCallbacks := by
  cases event with
  | cancel => exact List.Subset.refl _
  | _ => exact List.nil_subset _

/-- The loop calls what it has taken one by one, from the first on. -/
theorem LoopStep.taken_eq (h : LoopStep v event v') (hevent : event ≠ .collect) :
    calls v event ++ v'.phase.taken = v.phase.taken := by
  cases h with
  | collect => exact absurd rfl hevent
  | endWork succeeded hphase => cases succeeded <;> simp [calls, Phase.taken, hphase]
  | endProbe round hasWork hphase =>
    rcases round with _ | _ <;> rcases hasWork with _ | _ | _ <;>
      simp [calls, Phase.taken, afterProbe, hphase]
  | checkAfterWork hphase | stayAwake hphase | awaken hphase | checkBeforePause _ hphase
  | checkAfterPause hphase =>
    cases hstop : v.stopRequested <;> simp [calls, Phase.taken, unlessStopped, hstop, hphase]
  | _ => simp [calls, Phase.taken, *]

/-- The loop leaves what waits alone until it takes it. -/
theorem LoopStep.waiting_eq (h : LoopStep v event v') (hevent : event ≠ .collect) :
    v'.idleCallbacks ++ drops v event = v.idleCallbacks ++ accepts v event := by
  cases h with
  | collect => exact absurd rfl hevent
  | _ => rfl

/-- Unless the loop takes the list, what it has taken loses the callback that it calls, and what
waits gains what is accepted, after what is not dropped. -/
theorem Step.taken_waiting_eq (h : Step v event v') (horderly : v.Orderly)
    (hevent : event ≠ .collect) :
    calls v event ++ v'.phase.taken = v.phase.taken ∧
      v'.idleCallbacks ++ drops v event = v.idleCallbacks ++ accepts v event := by
  cases h with
  | whenIdle callback hrunning =>
    rw [accepts_of_running hrunning]
    simp [calls, drops]
  | whenIdleRefused callback hrunning =>
    rw [accepts_of_not_running hrunning]
    simp [calls, drops]
  | spawn i hstarter =>
    have habsent := horderly.oneStart.phase_eq_absent hstarter nofun
    simp [calls, drops, accepts, habsent, Phase.taken]
  | loop event v' hloop => exact ⟨hloop.taken_eq hevent, hloop.waiting_eq hevent⟩
  | _ => simp [calls, drops, accepts, release, Worker.stop]

/-- The loop takes the list where it has called all that it took before. -/
theorem Step.collect_eq (h : Step v .collect v') :
    v.phase.taken = [] ∧ v'.phase.taken = v.idleCallbacks ∧ v'.idleCallbacks = [] := by
  cases h with
  | loop event v' hloop =>
    cases hloop with
    | collect hphase => simp [hphase, Phase.taken]

/-- Every callback that the worker has is called, dropped, or one that it still has, in the same
order. What an event accepts comes last of all. -/
theorem Step.conserves (h : Step v event v') (horderly : v.Orderly) :
    calls v event ++ (v'.phase.taken ++ v'.idleCallbacks) ++ drops v event =
      v.phase.taken ++ v.idleCallbacks ++ accepts v event := by
  by_cases hevent : event = .collect
  · subst hevent
    obtain ⟨hnone, htaken, hwaiting⟩ := h.collect_eq
    simp [calls, drops, accepts, hnone, htaken, hwaiting]
  · obtain ⟨htaken, hwaiting⟩ := h.taken_waiting_eq horderly hevent
    rw [← htaken, List.append_assoc _ v.idleCallbacks, ← hwaiting]
    simp only [List.append_assoc]

end Along

variable {κ : Type} {w v v' : Worker (Ticket κ)} {past : List (Event (Ticket κ))}
  {event : Event (Ticket κ)}

/-- The accepted callbacks in the order of their acceptance, less those dropped with a start. -/
def kept (w : Worker (Ticket κ)) (events : List (Event (Ticket κ))) : List (Ticket κ) :=
  (along accepts w events).filter fun ticket =>
    ticket.number ∉ (along drops w events).map Ticket.number

/-- Accepted callbacks are numbered in order, and all of them are called, dropped or still there. -/
structure Conserved (w : Worker (Ticket κ)) (past : List (Event (Ticket κ)))
    (v : Worker (Ticket κ)) : Prop where
  orderly : v.Orderly
  increasing : (along accepts w past).Pairwise (·.number < ·.number)
  early : ∀ ticket ∈ along accepts w past, ticket.number < past.length
  dropped : along drops w past ⊆ along accepts w past
  conserved : along calls w past ++ (v.phase.taken ++ v.idleCallbacks) = w.kept past

/-- Where the numbers increase, leaving out the numbers of the last entries leaves the others. -/
theorem filter_append_of_increasing {before last : List (Ticket κ)}
    (h : (before ++ last).Pairwise (·.number < ·.number)) :
    (before ++ last).filter (fun ticket => ticket.number ∉ last.map Ticket.number) = before := by
  have hless := (List.pairwise_append.mp h).2.2
  have hbefore : before.filter (fun ticket => ticket.number ∉ last.map Ticket.number) = before := by
    refine List.filter_eq_self.mpr fun ticket hmem => decide_eq_true fun hnumber => ?_
    obtain ⟨other, hother, heq⟩ := List.mem_map.mp hnumber
    exact Nat.lt_irrefl _ (heq ▸ hless ticket hmem other hother)
  have hlast : last.filter (fun ticket => ticket.number ∉ last.map Ticket.number) = [] := by
    refine List.filter_eq_nil_iff.mpr fun ticket hmem hnot => ?_
    exact of_decide_eq_true hnot (List.mem_map_of_mem hmem)
  rw [List.filter_append, hbefore, hlast, List.append_nil]

/-- What is accepted now has the number of this event. -/
theorem number_of_mem_accepts (hticketed : Ticketed (past ++ [event])) {ticket : Ticket κ}
    (hmem : ticket ∈ v.accepts event) : ticket.number = past.length := by
  obtain ⟨rfl, -⟩ := eq_whenIdle_of_mem_accepts hmem
  exact hticketed past.length ticket List.getElem?_concat_length

/-- What is accepted now has not been dropped. -/
theorem Conserved.kept_concat (h : Conserved w past v) (hrun : w.run past = some v)
    (hticketed : Ticketed (past ++ [event])) :
    w.kept (past ++ [event]) =
      (w.kept past ++ v.accepts event).filter fun ticket =>
        ticket.number ∉ (v.drops event).map Ticket.number := by
  have hnew : (v.accepts event).filter (fun ticket =>
      ticket.number ∉ (along drops w past).map Ticket.number) = v.accepts event := by
    refine List.filter_eq_self.mpr fun ticket hmem => decide_eq_true fun hdropped => ?_
    obtain ⟨other, hother, heq⟩ := List.mem_map.mp hdropped
    have hearly := h.early other (h.dropped hother)
    rw [heq, number_of_mem_accepts hticketed hmem] at hearly
    exact Nat.lt_irrefl _ hearly
  rw [kept, along_concat hrun, along_concat hrun, kept]
  conv_rhs => rw [← hnew, ← List.filter_append, List.filter_filter]
  refine List.filter_congr fun ticket _ => ?_
  rw [List.map_append, ← Bool.decide_and, decide_eq_decide, List.mem_append]
  tauto

/-- What is accepted now has the largest number so far. -/
theorem Conserved.increasing_concat (h : Conserved w past v) (hrun : w.run past = some v)
    (hticketed : Ticketed (past ++ [event])) :
    (along accepts w (past ++ [event])).Pairwise (·.number < ·.number) := by
  rw [along_concat hrun]
  refine List.pairwise_append.mpr ⟨h.increasing, ?_, fun old hold new hnew => ?_⟩
  · cases haccepts : v.accepts event with
    | nil => exact .nil
    | cons ticket rest =>
      have hone := (eq_whenIdle_of_mem_accepts (haccepts ▸ List.mem_cons_self)).2
      rw [← haccepts, hone]
      exact List.pairwise_singleton _ _
  · rw [number_of_mem_accepts hticketed hnew]
    exact h.early old hold

/-- What was kept, and what is accepted now, is called, still there, or dropped now. -/
theorem Conserved.moved (h : Conserved w past v) (hrun : w.run past = some v)
    (hstep : Step v event v') :
    along calls w (past ++ [event]) ++ (v'.phase.taken ++ v'.idleCallbacks) ++ v.drops event =
      w.kept past ++ v.accepts event := by
  rw [along_concat hrun, ← h.conserved]
  simp only [List.append_assoc]
  rw [← List.append_assoc v.phase.taken, ← hstep.conserves h.orderly]
  simp only [List.append_assoc]

/-- Only what was accepted is dropped. -/
theorem Conserved.dropped_concat (h : Conserved w past v) (hrun : w.run past = some v)
    (event : Event (Ticket κ)) :
    along drops w (past ++ [event]) ⊆ along accepts w (past ++ [event]) := by
  rw [along_concat hrun, along_concat hrun]
  refine List.append_subset.mpr ⟨fun ticket hmem => ?_, fun ticket hmem => ?_⟩
  · exact List.mem_append_left _ (h.dropped hmem)
  · have hkept : ticket ∈ w.kept past := by
      rw [← h.conserved]
      exact List.mem_append_right _ (List.mem_append_right _ (drops_subset v event hmem))
    exact List.mem_append_left _ (List.mem_filter.mp hkept).1

/-- Every event keeps the callbacks in order. -/
theorem Conserved.step (h : Conserved w past v) (hrun : w.run past = some v)
    (hticketed : Ticketed (past ++ [event])) (hstep : Step v event v') :
    Conserved w (past ++ [event]) v' where
  orderly := h.orderly.step hstep
  increasing := h.increasing_concat hrun hticketed
  early := by
    intro ticket hmem
    have hlength : (past ++ [event]).length = past.length + 1 := List.length_append
    rw [along_concat hrun] at hmem
    rcases List.mem_append.mp hmem with hold | hnew
    · have hearly := h.early ticket hold
      omega
    · have hnumber := number_of_mem_accepts hticketed hnew
      omega
  dropped := h.dropped_concat hrun event
  conserved := by
    -- All that was kept, and what is new, has increasing numbers; the dropped ones come last.
    have hmoved := h.moved hrun hstep
    have hsub : (w.kept past ++ v.accepts event).Sublist (along accepts w (past ++ [event])) := by
      rw [along_concat hrun]
      exact List.filter_sublist.append_right _
    have hincreasing := (h.increasing_concat hrun hticketed).sublist hsub
    rw [h.kept_concat hrun hticketed, ← hmoved]
    exact (filter_append_of_increasing (hmoved ▸ hincreasing)).symm

/-- After every run of a fresh worker the callbacks are in order. -/
theorem Fresh.conserved_run {events : List (Event (Ticket κ))} (h : w.Fresh)
    (hticketed : Ticketed events) (hrun : w.run events = some v) : Conserved w events v := by
  refine run_induct (P := fun past v => Ticketed past → Conserved w past v) hrun ?_ ?_ hticketed
  · intro _
    refine ⟨h.orderly, .nil, nofun, List.nil_subset _, ?_⟩
    simp [along, kept, h.phase, h.idleCallbacks, Phase.taken]
  · intro past v event v' hpast ih hstep hnext
    exact (ih hnext.of_concat).step hpast hnext hstep

/-- At every moment the callbacks that were called, those that the loop has taken and those that
wait are the accepted ones in the order of their acceptance, less those that waited when a claimed
start was given back. So the loop calls in this order, and none twice. -/
theorem called_taken_waiting_eq_kept {events : List (Event (Ticket κ))} (h : w.Fresh)
    (hticketed : Ticketed events) (hrun : w.run events = some v) :
    along calls w events ++ v.phase.taken ++ v.idleCallbacks =
        ((along accepts w events).filter fun ticket =>
          ticket.number ∉ (along drops w events).map Ticket.number) ∧
      (along accepts w events).Pairwise (·.number < ·.number) ∧
      (along calls w events ++ v.phase.taken ++ v.idleCallbacks).Pairwise
        (·.number < ·.number) := by
  have hconserved := h.conserved_run hticketed hrun
  have hsame : along calls w events ++ v.phase.taken ++ v.idleCallbacks = w.kept events := by
    rw [List.append_assoc]
    exact hconserved.conserved
  refine ⟨hsame, hconserved.increasing, ?_⟩
  rw [hsame]
  exact hconserved.increasing.sublist List.filter_sublist

/-- A start is given back and claimed again. The first callback that is called leaves another. -/
def leftByCallback : List (Event (Ticket Unit)) :=
  [.reserve, .whenIdle ⟨1, ()⟩, .cancel 0, .reserve, .whenIdle ⟨4, ()⟩, .whenIdle ⟨5, ()⟩, .clear 0,
    .spawn 0, .storeHandle 0, .enter, .beginWork, .endWork true, .countSuccess, .checkAfterWork,
    .rearm, .beginProbe, .endProbe (some false), .collect, .beginCall, .whenIdle ⟨19, ()⟩]

theorem called_taken_waiting_eq_kept_leftByCallback :
    ∃ v, minutely.run leftByCallback = some v ∧
      along drops minutely leftByCallback = [⟨1, ()⟩] ∧
      along calls minutely leftByCallback = [⟨4, ()⟩] ∧ v.phase.taken = [⟨5, ()⟩] ∧
      v.idleCallbacks = [⟨19, ()⟩] ∧
      along calls minutely leftByCallback ++ v.phase.taken ++ v.idleCallbacks =
        (along accepts minutely leftByCallback).filter fun ticket =>
          ticket.number ∉ (along drops minutely leftByCallback).map Ticket.number := by
  have hfresh : (minutely : Worker (Ticket Unit)).Fresh := fresh_mk ..
  obtain ⟨v, hrun⟩ : ∃ v, minutely.run leftByCallback = some v := ⟨_, rfl⟩
  have hkept := (called_taken_waiting_eq_kept hfresh (by decide) hrun).1
  refine ⟨v, hrun, rfl, rfl, ?_, ?_, hkept⟩ <;>
    · cases hrun
      rfl

end Worker

end ShopValidation
