import ShopValidation.Proofs.Scheduler.Draining
import ShopValidation.Proofs.Scheduler.FailedBatch
import ShopValidation.Proofs.Scheduler.Settling

/-!
# What a whole batch does

While a batch goes through its stages others may add shops and tasks, wake the worker, put other
sources in place and set the clock. `BatchEffect` says everything that the batch does, for each way in
which it can end. One that succeeds settles the tables as they are when it writes, and one that fails
has done nothing but ask.
-/

namespace ShopValidation

/-- What a batch has picked and the reasons that come next, given the stages that it took steps from,
with the tables and the time of each. Once there is room for a full batch it takes, reason by reason,
the front of the queue as it is at that step, for as long as it is not full. -/
inductive Stage.Picks (took : Stage → Tables → Instant → Prop) (batchMax : Nat) :
    List QueuedTask → List Reason → Prop where
  | start (hfits : batchMax * pickedTaskBytes ≤ largestAllocation) :
    Picks took batchMax [] Reason.byPriority
  | more {picked rows : List QueuedTask} {reason : Reason} {reasons : List Reason} {tables : Tables}
    {time : Instant} (h : Picks took batchMax picked (reason :: reasons))
    (htook : took (.selecting picked (reason :: reasons)) tables time)
    (hroom : picked.length < batchMax)
    (hselect : tables.select reason (batchMax - picked.length) = .ok rows) :
    Picks took batchMax (picked ++ rows) reasons

/-- What a batch held when it left its selection: no reason was left, or it was full. -/
def Stage.Selected (took : Stage → Tables → Instant → Prop) (batchMax : Nat)
    (picked : List QueuedTask) : Prop :=
  ∃ reasons tables time, Picks took batchMax picked reasons ∧
    (reasons = [] ∨ batchMax ≤ picked.length) ∧ took (.selecting picked reasons) tables time

/-- How a batch ends that has picked some tasks, by the reply of its source. -/
inductive Stage.EndsBy (picked : List QueuedTask) :
    Reply → Ending ValidationError Outcome → Prop where
  | failed (error : GeodataError) : EndsBy picked (.failed error) (.error (.refused (.geodata error)))
  | crashed : EndsBy picked .crashed (.error .crashed)
  | noProgress {found : List Resolved} (hnone : located picked found = []) :
    EndsBy picked (.answered found) (.error (.refused (.noProgress picked.length)))
  | done {found : List Resolved} (hsome : located picked found ≠ []) :
    EndsBy picked (.answered found) (.ok ⟨picked.length, (located picked found).length⟩)

/-- What a batch does from its beginning to its end, given the tables and its source at the beginning
and now, and the tasks that it picked. `took` says from which stages it took a step, on which tables,
and at what time. -/
structure BatchEffect (took : Stage → Tables → Instant → Prop) (batchMax : Nat) (before now : Tables)
    (source source' : Source) (picked : List QueuedTask) (ending : Ending ValidationError Outcome) :
    Prop where
  /-- What it picked is what it held when it left its selection, if there is room for a full batch. -/
  selection : batchMax * pickedTaskBytes ≤ largestAllocation → Stage.Selected took batchMax picked
  /-- If there is not it crashes with nothing picked. -/
  overfull : largestAllocation < batchMax * pickedTaskBytes → picked = [] ∧ ending = .error .crashed
  /-- It picks tasks of the queue beside their shops, each once. -/
  selected : ∃ base, before.Picked base picked
  /-- It asks about their locations where it picks any, and never again. -/
  asked : source'.asked = source.asked ++ if picked.isEmpty then [] else [pickedUids picked]
  /-- What it picked is what it asked about. -/
  asking : picked ≠ [] → ∃ tables time, took (.resolving picked) tables time
  /-- Where it has room and picks nothing it is done, with nothing changed. -/
  idle : batchMax * pickedTaskBytes ≤ largestAllocation → picked = [] →
    ending = .ok ⟨0, 0⟩ ∧ before.Grows now
  /-- Where it picks any its ending is up to the reply. -/
  ends : picked ≠ [] → Stage.EndsBy picked (source.ask (pickedUids picked)).1 ending
  /-- Where it succeeds with tasks it settles the tables as they are when it writes, with the time that
  it read once it had the answer. -/
  done : ∀ outcome, ending = .ok outcome → picked ≠ [] → ∃ found stamp base written,
    (source.ask (pickedUids picked)).1 = .answered found ∧
    (∃ tables, took (.stamping picked found) tables stamp) ∧
    (∃ time, took (.applying picked (validations picked found stamp)) base time) ∧
    outcome = ⟨picked.length, (located picked found).length⟩ ∧ 1 ≤ outcome.resolved ∧
    before.Picked base picked ∧ base.Settles picked found stamp written ∧ written.Grows now
  /-- Where it fails it changes nothing. -/
  failed : ∀ failure, ending = .error failure → before.Grows now
  /-- It makes no progress where it has an answer and no task is located. -/
  noProgress : ∀ n, ending = .error (.refused (.noProgress n)) ↔
    picked ≠ [] ∧ n = picked.length ∧ ∃ found,
      (source.ask (pickedUids picked)).1 = .answered found ∧
      ∀ queued ∈ picked, ∀ entry ∈ found, entry.uid ≠ queued.shop.locationUid

namespace Stage

section

variable (took : Stage → Tables → Instant → Prop) (batchMax : Nat) (before : Tables) (source : Source)

/-- A batch has asked about what it picked, and this was the reply. -/
structure Asked (picked : List QueuedTask) (reply : Reply) : Prop where
  selected : Selected took batchMax picked
  some_picked : picked ≠ []
  asking : ∃ tables time, took (.resolving picked) tables time
  reply : (source.ask (pickedUids picked)).1 = reply

/-- How a batch can have ended. -/
inductive Concluded : Ending ValidationError Outcome → Tables → Source → Prop where
  | idle {now : Tables} (hselected : Selected took batchMax []) (hgrows : before.Grows now) :
    Concluded (.ok ⟨0, 0⟩) now source
  | overfull {now : Tables} (hover : largestAllocation < batchMax * pickedTaskBytes)
    (hgrows : before.Grows now) : Concluded (.error .crashed) now source
  | failed {now : Tables} {picked : List QueuedTask} {error : GeodataError}
    (hpicked : before.Picked now picked) (hasked : Asked took batchMax source picked (.failed error)) :
    Concluded (.error (.refused (.geodata error))) now (source.ask (pickedUids picked)).2
  | crashed {now : Tables} {picked : List QueuedTask} (hpicked : before.Picked now picked)
    (hasked : Asked took batchMax source picked .crashed) :
    Concluded (.error .crashed) now (source.ask (pickedUids picked)).2
  | noProgress {now : Tables} {picked : List QueuedTask} {found : List Resolved}
    (hpicked : before.Picked now picked) (hasked : Asked took batchMax source picked (.answered found))
    (hnone : located picked found = []) :
    Concluded (.error (.refused (.noProgress picked.length))) now (source.ask (pickedUids picked)).2
  | done {base written now : Tables} {picked : List QueuedTask} {found : List Resolved}
    {stamp : Instant} (hpicked : before.Picked base picked)
    (hasked : Asked took batchMax source picked (.answered found))
    (hread : ∃ tables, took (.stamping picked found) tables stamp)
    (hwrote : ∃ time, took (.applying picked (validations picked found stamp)) base time)
    (hsome : located picked found ≠ []) (hsettles : base.Settles picked found stamp written)
    (hgrows : written.Grows now) :
    Concluded (.ok ⟨picked.length, (located picked found).length⟩) now
      (source.ask (pickedUids picked)).2

/-- How far a batch can have come, with the tables and its source. -/
inductive Progress : Stage → Tables → Source → Prop where
  | selecting {now : Tables} {picked : List QueuedTask} {reasons : List Reason}
    (hpicks : Picks took batchMax picked reasons) (hpicked : before.Picked now picked)
    (hlater : ∀ queued ∈ picked, queued.task.reason ∉ reasons) (hnodup : reasons.Nodup) :
    Progress (.selecting picked reasons) now source
  | resolving {now : Tables} {picked : List QueuedTask} (hselected : Selected took batchMax picked)
    (hpicked : before.Picked now picked) (hsome : picked ≠ []) :
    Progress (.resolving picked) now source
  | stamping {now : Tables} {picked : List QueuedTask} {found : List Resolved}
    (hpicked : before.Picked now picked) (hasked : Asked took batchMax source picked (.answered found)) :
    Progress (.stamping picked found) now (source.ask (pickedUids picked)).2
  | applying {now : Tables} {picked : List QueuedTask} {found : List Resolved} {stamp : Instant}
    (hpicked : before.Picked now picked) (hasked : Asked took batchMax source picked (.answered found))
    (hread : ∃ tables, took (.stamping picked found) tables stamp)
    (hsome : located picked found ≠ []) :
    Progress (.applying picked (validations picked found stamp)) now
      (source.ask (pickedUids picked)).2
  | finished {ending : Ending ValidationError Outcome} {now : Tables} {source' : Source}
    (h : Concluded took batchMax before source ending now source') :
    Progress (.finished ending) now source'

end

variable {took took' : Stage → Tables → Instant → Prop} {before now later : Tables}
  {source source' source'' : Source} {stage stage' : Stage} {picked : List QueuedTask} {reply : Reply}
  {ending : Ending ValidationError Outcome} {batchMax : Nat} {time : Instant}

/-- Steps that were taken stay taken. -/
theorem Picks.mono {reasons : List Reason} (h : Picks took batchMax picked reasons)
    (htook : ∀ stage tables time, took stage tables time → took' stage tables time) :
    Picks took' batchMax picked reasons := by
  induction h with
  | start hfits => exact .start hfits
  | more h hstep hroom hselect ih => exact .more ih (htook _ _ _ hstep) hroom hselect

/-- There is room for a full batch where one picks. -/
theorem Picks.fits {reasons : List Reason} (h : Picks took batchMax picked reasons) :
    batchMax * pickedTaskBytes ≤ largestAllocation := by
  induction h with
  | start hfits => exact hfits
  | more h hstep hroom hselect ih => exact ih

/-- What was selected stays so. -/
theorem Selected.mono (h : Selected took batchMax picked)
    (htook : ∀ stage tables time, took stage tables time → took' stage tables time) :
    Selected took' batchMax picked := by
  obtain ⟨reasons, tables, time, hpicks, hleft, hstep⟩ := h
  exact ⟨reasons, tables, time, hpicks.mono htook, hleft, htook _ _ _ hstep⟩

/-- There is room for a full batch where one has picked. -/
theorem Selected.fits (h : Selected took batchMax picked) :
    batchMax * pickedTaskBytes ≤ largestAllocation := by
  obtain ⟨_, _, _, hpicks, -⟩ := h
  exact hpicks.fits

/-- What was asked stays asked. -/
theorem Asked.mono (h : Asked took batchMax source picked reply)
    (htook : ∀ stage tables time, took stage tables time → took' stage tables time) :
    Asked took' batchMax source picked reply where
  selected := h.selected.mono htook
  some_picked := h.some_picked
  asking := h.asking.imp fun _ => .imp fun _ => htook _ _ _
  reply := h.reply

/-- A batch that has ended stays as it is while others add rows. -/
theorem Concluded.mono (h : Concluded took batchMax before source ending now source')
    (htook : ∀ stage tables time, took stage tables time → took' stage tables time)
    (hgrows : now.Grows later) : Concluded took' batchMax before source ending later source' := by
  cases h with
  | idle hselected h => exact .idle (hselected.mono htook) (h.trans hgrows)
  | overfull hover h => exact .overfull hover (h.trans hgrows)
  | failed hpicked hasked => exact .failed (hpicked.mono hgrows) (hasked.mono htook)
  | crashed hpicked hasked => exact .crashed (hpicked.mono hgrows) (hasked.mono htook)
  | noProgress hpicked hasked hnone =>
    exact .noProgress (hpicked.mono hgrows) (hasked.mono htook) hnone
  | done hpicked hasked hread hwrote hsome hsettles hmore =>
    exact .done hpicked (hasked.mono htook) (hread.imp fun _ => htook _ _ _)
      (hwrote.imp fun _ => htook _ _ _) hsome hsettles (hmore.trans hgrows)

/-- A batch stays where it is while others add rows. -/
theorem Progress.mono (h : Progress took batchMax before source stage now source')
    (htook : ∀ stage tables time, took stage tables time → took' stage tables time)
    (hgrows : now.Grows later) : Progress took' batchMax before source stage later source' := by
  cases h with
  | selecting hpicks hpicked hlater hnodup =>
    exact .selecting (hpicks.mono htook) (hpicked.mono hgrows) hlater hnodup
  | resolving hselected hpicked hsome =>
    exact .resolving (hselected.mono htook) (hpicked.mono hgrows) hsome
  | stamping hpicked hasked => exact .stamping (hpicked.mono hgrows) (hasked.mono htook)
  | applying hpicked hasked hread hsome =>
    exact .applying (hpicked.mono hgrows) (hasked.mono htook) (hread.imp fun _ => htook _ _ _) hsome
  | finished h => exact .finished (h.mono htook hgrows)

/-- A batch begins with nothing picked, or has crashed at once. -/
theorem progress_first (took : Stage → Tables → Instant → Prop) (tables : Tables) (source : Source)
    (batchMax : Nat) :
    Progress took batchMax tables source (.first batchMax) tables source := by
  unfold Stage.first
  split
  case isTrue hfits =>
    exact .selecting (.start hfits) (Tables.picked_nil (.refl tables)) (List.forall_mem_nil _)
      Reason.nodup_byPriority
  case isFalse hover => exact .finished (.overfull (Nat.lt_of_not_le hover) (.refl tables))

/-- Each step leads from one stage of progress to the next. The tables are sound, so that neither a
selection nor a write is refused. -/
theorem Progress.step (h : Progress took batchMax before source stage now source')
    (hsound : now.Sound) (hstep : Step batchMax time now source' stage stage' later source'')
    (htook : ∀ stage tables time, took stage tables time → took' stage tables time)
    (hnow : took' stage now time) : Progress took' batchMax before source stage' later source'' := by
  cases h with
  | @selecting _ chosen reasons hpicks hpicked hlater hnodup =>
    cases hstep with
    | full _ _ hleft =>
      have hselected : Selected took' batchMax chosen :=
        ⟨reasons, now, time, hpicks.mono htook, hleft, hnow⟩
      cases chosen with
      | nil => exact .finished (.idle hselected hpicked.grows)
      | cons => exact .resolving hselected hpicked (List.cons_ne_nil _ _)
    | pick _ rows reason reasons hroom hselect =>
      obtain ⟨hother, hnodup⟩ := List.nodup_cons.mp hnodup
      refine .selecting (.more (hpicks.mono htook) hnow hroom hselect)
        (hpicked.append hsound (fun queued hqueued hsame => ?_) hselect)
        (fun queued hqueued => ?_) hnodup
      · exact hlater queued hqueued (hsame ▸ List.mem_cons_self)
      · rcases List.mem_append.mp hqueued with hold | hrow
        · exact fun hmem => hlater queued hold (List.mem_cons_of_mem _ hmem)
        · rwa [(Tables.mem_of_select hselect hrow).2]
    | pickRefused _ reason reasons error hroom hselect =>
      obtain ⟨rows, hrows⟩ := hsound.exists_select reason (batchMax - chosen.length)
      rw [hrows] at hselect
      cases hselect
  | @resolving _ chosen hselected hpicked hsome =>
    cases hstep with
    | ask =>
      have hasked : ∀ reply, (source.ask (pickedUids chosen)).1 = reply →
          Asked took' batchMax source chosen reply := fun reply hreply =>
        ⟨hselected.mono htook, hsome, ⟨now, time, hnow⟩, hreply⟩
      cases hreply : (source.ask (pickedUids chosen)).1 with
      | answered found => exact .stamping hpicked (hasked _ hreply)
      | failed error => exact .finished (.failed hpicked (hasked _ hreply))
      | crashed => exact .finished (.crashed hpicked (hasked _ hreply))
  | @stamping _ chosen found hpicked hasked =>
    cases hstep with
    | stamp =>
      have hlength := length_validations chosen found time
      rw [Stage.stamped]
      split
      · rename_i hnone
        rw [hnone] at hlength
        have hnoneLocated := List.length_eq_zero_iff.mp hlength.symm
        exact .finished (.noProgress hpicked (hasked.mono htook) hnoneLocated)
      · rename_i happlied
        refine .applying hpicked (hasked.mono htook) ⟨now, hnow⟩ fun hnone => happlied ?_
        rw [hnone] at hlength
        exact List.length_eq_zero_iff.mp hlength
  | applying hpicked hasked hread hsome =>
    obtain ⟨written, happly, hsettles⟩ := hpicked.exists_applyBatch hsound _ _
    cases hstep with
    | write _ _ _ hwrite =>
      rw [happly] at hwrite
      cases hwrite
      rw [length_validations]
      exact .finished
        (.done hpicked (hasked.mono htook) (hread.imp fun _ => htook _ _ _) ⟨time, hnow⟩ hsome
          hsettles (.refl later))
    | writeRefused _ _ error hwrite =>
      rw [happly] at hwrite
      cases hwrite
  | finished h =>
    cases hstep with
    | rest => exact .finished (h.mono htook (.refl now))

/-- A task whose location has no entry is not located, and the other way round. -/
theorem located_eq_nil_iff {found : List Resolved} : located picked found = [] ↔
    ∀ queued ∈ picked, ∀ entry ∈ found, entry.uid ≠ queued.shop.locationUid := by
  simp [located]

/-- The source was asked once. -/
theorem Asked.asked (h : Asked took batchMax source picked reply) :
    (source.ask (pickedUids picked)).2.asked =
      source.asked ++ if picked.isEmpty then [] else [pickedUids picked] := by
  have hsome : picked.isEmpty = false := List.isEmpty_eq_false_iff.mpr h.some_picked
  rw [hsome]
  rfl

/-- There is one reply. -/
theorem Asked.reply_unique {other : Reply} (h : Asked took batchMax source picked reply)
    (hother : (source.ask (pickedUids picked)).1 = other) : other = reply :=
  hother.symm.trans h.reply

/-- However a batch has ended, its effect is known. -/
theorem Concluded.effect (h : Concluded took batchMax before source ending now source') :
    ∃ picked, BatchEffect took batchMax before now source source' picked ending := by
  have hroom {picked : List QueuedTask} (hselected : Selected took batchMax picked) :
      ¬largestAllocation < batchMax * pickedTaskBytes := Nat.not_lt.mpr hselected.fits
  cases h with
  | idle hselected hgrows =>
    refine ⟨[], fun _ => hselected, fun hover => absurd hover (hroom hselected),
      ⟨before, Tables.picked_nil (.refl before)⟩, (List.append_nil _).symm,
      fun hsome => absurd rfl hsome, fun _ _ => ⟨rfl, hgrows⟩, fun hsome => absurd rfl hsome,
      fun _ _ hsome => absurd rfl hsome, nofun, ?_⟩
    exact fun n => iff_of_false nofun fun hright => hright.1 rfl
  | overfull hover hgrows =>
    refine ⟨[], fun hfits => absurd hfits (Nat.not_le.mpr hover), fun _ => ⟨rfl, rfl⟩,
      ⟨before, Tables.picked_nil (.refl before)⟩, (List.append_nil _).symm,
      fun hsome => absurd rfl hsome, fun hfits => absurd hfits (Nat.not_le.mpr hover),
      fun hsome => absurd rfl hsome, nofun, fun _ _ => hgrows, ?_⟩
    exact fun n => iff_of_false nofun fun hright => hright.1 rfl
  | failed hpicked hasked =>
    refine ⟨_, fun _ => hasked.selected, fun hover => absurd hover (hroom hasked.selected),
      ⟨now, hpicked⟩, hasked.asked, fun _ => hasked.asking,
      fun _ hnone => absurd hnone hasked.some_picked, fun _ => hasked.reply ▸ .failed _, nofun,
      fun _ _ => hpicked.grows, fun n => iff_of_false nofun ?_⟩
    rintro ⟨-, -, found, hreply, -⟩
    cases hasked.reply_unique hreply
  | crashed hpicked hasked =>
    refine ⟨_, fun _ => hasked.selected, fun hover => absurd hover (hroom hasked.selected),
      ⟨now, hpicked⟩, hasked.asked, fun _ => hasked.asking,
      fun _ hnone => absurd hnone hasked.some_picked, fun _ => hasked.reply ▸ .crashed, nofun,
      fun _ _ => hpicked.grows, fun n => iff_of_false nofun ?_⟩
    rintro ⟨-, -, found, hreply, -⟩
    cases hasked.reply_unique hreply
  | @noProgress _ chosen found hpicked hasked hnone =>
    refine ⟨chosen, fun _ => hasked.selected, fun hover => absurd hover (hroom hasked.selected),
      ⟨now, hpicked⟩, hasked.asked, fun _ => hasked.asking,
      fun _ hnil => absurd hnil hasked.some_picked, fun _ => hasked.reply ▸ .noProgress hnone, nofun,
      fun _ _ => hpicked.grows, fun n => ⟨?_, ?_⟩⟩
    · rintro heq
      cases heq
      exact ⟨hasked.some_picked, rfl, found, hasked.reply, located_eq_nil_iff.mp hnone⟩
    · rintro ⟨-, rfl, -⟩
      rfl
  | @done base written _ chosen found stamp hpicked hasked hread hwrote hsome hsettles hgrows =>
    refine ⟨chosen, fun _ => hasked.selected, fun hover => absurd hover (hroom hasked.selected),
      ⟨base, hpicked⟩, hasked.asked, fun _ => hasked.asking,
      fun _ hnil => absurd hnil hasked.some_picked, fun _ => hasked.reply ▸ .done hsome, ?_, nofun,
      fun n => iff_of_false nofun ?_⟩
    · rintro outcome heq -
      cases heq
      exact ⟨found, stamp, base, written, hasked.reply, hread, hwrote, rfl,
        List.length_pos_iff.mpr hsome, hpicked, hsettles, hgrows⟩
    · rintro ⟨-, -, other, hreply, hnone⟩
      cases hasked.reply_unique hreply
      exact hsome (located_eq_nil_iff.mpr hnone)

end Stage

/-- Whether a move ends a batch. -/
def Move.endsBatch {κ : Type} : Move κ → Bool
  | .endBatch | .event (.endWork _) => true
  | _ => false

namespace Service

variable {κ : Type} {service after now next : Service κ} {move : Move κ} {moves past : List (Move κ)}
  {place : Nat} {source : Source}

/-- In a run the batch in progress takes a step from a stage, on the tables of that moment and at its
time. -/
def Takes (service : Service κ) (moves : List (Move κ)) (stage : Stage) (tables : Tables)
    (time : Instant) : Prop :=
  ∃ early late between running, moves = early ++ .stepBatch :: late ∧
    service.run early = some between ∧ between.running = some running ∧
    running.batch.stage = stage ∧ between.tables = tables ∧ between.worker.clock.now = time

/-- A step that was taken stays taken. -/
theorem Takes.concat {stage : Stage} {tables : Tables} {time : Instant}
    (h : service.Takes past stage tables time) (move : Move κ) :
    service.Takes (past ++ [move]) stage tables time := by
  obtain ⟨early, late, between, running, rfl, hbetween⟩ := h
  exact ⟨early, late ++ [move], between, running, by simp, hbetween⟩

/-- What holds at the beginning and is kept by every move of a run, given the moves before it, holds
after the run. -/
theorem run_induct_past {P : List (Move κ) → Service κ → Prop} (h : service.run moves = some after)
    (hbegin : P [] service)
    (hstep : ∀ past, ∀ move ∈ moves, ∀ s s', service.run past = some s → P past s →
      Step s move s' → P (past ++ [move]) s') : P moves after := by
  induction moves using List.reverseRecOn generalizing after with
  | nil => exact Option.some.inj h ▸ hbegin
  | append_singleton past move ih =>
    rw [run_append] at h
    obtain ⟨between, hpast, hlast⟩ := Option.bind_eq_some_iff.mp h
    have hmove : between.step move = some after := by simpa using hlast
    have hbetween := ih hpast fun past other hother =>
      hstep past other (List.mem_append_left _ hother)
    exact hstep past move (by simp) between after hpast hbetween (.of_step hmove)

/-- The batch in progress goes on: it is where it was, all sources stay in their places, and rows are
added at most. -/
structure Undisturbed (now next : Service κ) : Prop where
  running_eq : next.running = now.running
  placed : ∀ (place : Nat) (source : Source), now.scheduler.sources[place]? = some source →
    next.scheduler.sources[place]? = some source
  grows : now.tables.Grows next.tables

/-- So it does where all three are the same. -/
theorem undisturbed_of_eq (hrunning : next.running = now.running)
    (hsources : next.scheduler.sources = now.scheduler.sources) (htables : next.tables = now.tables) :
    now.Undisturbed next where
  running_eq := hrunning
  placed place source h := by rwa [hsources]
  grows := htables ▸ .refl now.tables

/-- Other sources take places behind those that are there. -/
theorem undisturbed_of_append (hrunning : next.running = now.running)
    (hsources : next.scheduler.sources = now.scheduler.sources ++ [source])
    (htables : next.tables = now.tables) : now.Undisturbed next where
  running_eq := hrunning
  placed place source h := by
    rw [hsources, List.getElem?_append_left (List.getElem?_eq_some_iff.mp h).1]
    exact h
  grows := htables ▸ .refl now.tables

/-- While a batch is in progress, an event of the worker that does not end it leaves it undisturbed. -/
theorem undisturbed_turn {event : Event κ} (worker : Worker κ) {running : Running}
    (hrunning : now.running = some running) (hadmits : now.admits event = true)
    (hends : (Move.event event).endsBatch = false) :
    now.Undisturbed ((now.turn event).withWorker worker) := by
  cases event with
  | beginWork =>
    rw [admits, hrunning] at hadmits
    cases hadmits
  | endWork succeeded => cases hends
  | _ => exact undisturbed_of_eq rfl rfl rfl

/-- While a batch is in progress, a move that neither ends it nor revises rows is a step of it, or leaves
it undisturbed. -/
theorem Step.undisturbed {running : Running} (hstep : Step now move next)
    (hrunning : now.running = some running) (hspares : move.sparesRows = true)
    (hends : move.endsBatch = false) (hother : move ≠ .stepBatch) : now.Undisturbed next := by
  cases hstep with
  | change change =>
    cases change with
    | addShop shop => exact ⟨rfl, fun _ _ => id, now.tables.grows_addShop shop⟩
    | _ => cases hspares
  | enqueue requests hshops => exact ⟨rfl, fun _ _ => id, now.tables.grows_enqueue requests⟩
  | requeue hstarting hshops => exact ⟨rfl, fun _ _ => id, now.tables.grows_enqueue now.forgotten⟩
  | prepare | replace => exact undisturbed_of_append rfl rfl rfl
  | event event worker hadmits hworker => exact undisturbed_turn worker hrunning hadmits hends
  | beginBatch hfree =>
    rw [hrunning] at hfree
    cases hfree
  | endBatch => cases hends
  | stepBatch | stepBatchLost => exact absurd rfl hother
  | _ => exact undisturbed_of_eq rfl rfl rfl

/-- No move changes how many tasks a batch may pick. -/
theorem Step.batchMax_eq (h : Step now move next) :
    next.scheduler.batchMax = now.scheduler.batchMax := by
  cases h with
  | event event => cases event <;> rfl
  | _ => rfl

/-- The batch that began in a service with a source is in progress after some moves, on tables that
are in order. -/
structure Underway (service : Service κ) (place : Nat) (source : Source) (past : List (Move κ))
    (now : Service κ) (running : Running) (source' : Source) : Prop where
  running_eq : now.running = some running
  source_eq : running.batch.source = place
  placed : now.scheduler.sources[place]? = some source'
  sound : now.tables.Sound
  batchMax_eq : now.scheduler.batchMax = service.scheduler.batchMax
  progress : Stage.Progress (service.Takes past) service.scheduler.batchMax service.tables source
    running.batch.stage now.tables source'

variable {running : Running} {source' : Source}

/-- A batch is underway when it begins. -/
theorem underway_begun (htables : service.tables.Sound) {consumer : Consumer}
    (hbegun : service.running = some (service.begun consumer))
    (hinstalled : service.scheduler.installed = some place)
    (hsource : service.scheduler.sources[place]? = some source) :
    service.Underway place source [] service (service.begun consumer) source := by
  have hbatch : (service.begun consumer).batch = ⟨place, .first service.scheduler.batchMax⟩ := by
    simp only [begun, Scheduler.beginBatch, hinstalled]
  refine ⟨hbegun, ?_, hsource, htables, rfl, ?_⟩
  · rw [hbatch]
  · rw [hbatch]
    exact Stage.progress_first _ _ _ _

/-- A batch that is left undisturbed stays underway. -/
theorem Underway.frame (h : service.Underway place source past now running source')
    (hstep : Step now move next) (hundisturbed : now.Undisturbed next) :
    service.Underway place source (past ++ [move]) next running source' where
  running_eq := hundisturbed.running_eq.trans h.running_eq
  source_eq := h.source_eq
  placed := hundisturbed.placed _ _ h.placed
  sound := hstep.sound h.sound
  batchMax_eq := hstep.batchMax_eq.trans h.batchMax_eq
  progress := h.progress.mono (fun _ _ _ htook => htook.concat move) hundisturbed.grows

/-- A step of the batch brings it on. -/
theorem Underway.stepBatch (h : service.Underway place source past now running source')
    (hpast : service.run past = some now) (hstep : Step now .stepBatch next) :
    ∃ running' source'',
      service.Underway place source (past ++ [.stepBatch]) next running' source'' := by
  have hsound := hstep.sound h.sound
  have hmax := hstep.batchMax_eq.trans h.batchMax_eq
  cases hstep with
  | stepBatch running' other source'' stage tables hrunning hsource hstage =>
    obtain rfl := Option.some.inj (h.running_eq.symm.trans hrunning)
    rw [h.source_eq] at hsource
    obtain rfl := Option.some.inj (h.placed.symm.trans hsource)
    have htakes : service.Takes (past ++ [.stepBatch]) running.batch.stage now.tables
        now.worker.clock.now :=
      ⟨past, [], now, running, rfl, hpast, h.running_eq, rfl, rfl, rfl⟩
    have hlt := (List.getElem?_eq_some_iff.mp h.placed).1
    rw [h.batchMax_eq] at hstage
    refine ⟨_, source'', rfl, h.source_eq, ?_, hsound, hmax,
      h.progress.step h.sound hstage (fun _ _ _ htook => htook.concat _) htakes⟩
    rw [← h.source_eq] at hlt ⊢
    exact List.getElem?_set_self hlt
  | stepBatchLost running' hrunning hsource =>
    obtain rfl := Option.some.inj (h.running_eq.symm.trans hrunning)
    rw [h.source_eq, h.placed] at hsource
    cases hsource

/-- A batch is underway after every run of such moves. -/
theorem underway_run (htables : service.tables.Sound) {consumer : Consumer}
    (hbegun : service.running = some (service.begun consumer))
    (hinstalled : service.scheduler.installed = some place)
    (hsource : service.scheduler.sources[place]? = some source)
    (hrun : service.run moves = some after)
    (hmoves : ∀ move ∈ moves, move.sparesRows = true ∧ move.endsBatch = false) :
    ∃ running source', service.Underway place source moves after running source' := by
  refine run_induct_past (P := fun past now => ∃ running source',
    service.Underway place source past now running source') hrun
    ⟨_, _, underway_begun htables hbegun hinstalled hsource⟩ ?_
  rintro past move hmove now next hpast ⟨running, source', hunderway⟩ hstep
  obtain ⟨hspares, hends⟩ := hmoves move hmove
  by_cases hown : move = .stepBatch
  · subst hown
    exact hunderway.stepBatch hpast hstep
  · have hundisturbed := hstep.undisturbed hunderway.running_eq hspares hends hown
    exact ⟨_, _, hunderway.frame hstep hundisturbed⟩

/-- Without a source in place a batch has failed at once, and rows are added at most. -/
theorem notStarted_run {consumer : Consumer}
    (hbegun : service.running = some (service.begun consumer))
    (hinstalled : service.scheduler.installed = none) (hrun : service.run moves = some after)
    (hmoves : ∀ move ∈ moves, move.sparesRows = true ∧ move.endsBatch = false) :
    ∃ running, after.running = some running ∧
      running.batch.stage = .finished (.error (.refused .notStarted)) ∧
      service.tables.Grows after.tables := by
  have hfirst : (service.begun consumer).batch.stage = .finished (.error (.refused .notStarted)) := by
    simp only [begun, Scheduler.beginBatch, hinstalled]
  refine run_induct (P := fun now => ∃ running, now.running = some running ∧
    running.batch.stage = .finished (.error (.refused .notStarted)) ∧
    service.tables.Grows now.tables) hrun ⟨_, hbegun, hfirst, .refl _⟩ ?_
  rintro move hmove now next ⟨running, hrunning, hstage, hgrows⟩ hstep
  obtain ⟨hspares, hends⟩ := hmoves move hmove
  by_cases hown : move = .stepBatch
  · subst hown
    cases hstep with
    | stepBatch running' other source' stage tables hrunning' hsource hstep =>
      obtain rfl := Option.some.inj (hrunning.symm.trans hrunning')
      rw [hstage] at hstep
      cases hstep
      exact ⟨_, rfl, rfl, hgrows⟩
    | stepBatchLost running' hrunning' hsource => exact ⟨_, rfl, rfl, hgrows⟩
  · have hundisturbed := hstep.undisturbed hrunning hspares hends hown
    exact ⟨running, hundisturbed.running_eq.trans hrunning, hstage, hgrows.trans hundisturbed.grows⟩

/-- Whatever is added by others while a batch is in progress, and whatever time passes: without a source
in place it has failed at once. With one, its effect is known from its ending and from what it picked.
It asks about the locations of what it picked, each once and in the order in which they were first
picked. On every store where refused operations change nothing and selections never do, a batch that
fails changes nothing. -/
theorem batchEffect_of_finished (htables : service.tables.Reachable) {consumer : Consumer}
    {running : Running} {ending : Ending ValidationError Outcome}
    (hbegun : service.running = some (service.begun consumer))
    (hrun : service.run moves = some after)
    (hmoves : ∀ move ∈ moves, move.sparesRows = true ∧ move.endsBatch = false)
    (hrunning : after.running = some running) (hfinished : running.batch.stage = .finished ending) :
    (service.scheduler.installed = none →
      ending = .error (.refused .notStarted) ∧ service.tables.Grows after.tables) ∧
    (∀ place source, service.scheduler.installed = some place →
      service.scheduler.sources[place]? = some source →
      ∃ picked source', after.scheduler.sources[place]? = some source' ∧
        BatchEffect (service.Takes moves) service.scheduler.batchMax service.tables after.tables source
          source' picked ending ∧
        (pickedUids picked).Nodup ∧
        (∀ uid, uid ∈ pickedUids picked ↔ ∃ queued ∈ picked, queued.shop.locationUid = uid) ∧
        ((pickedUids picked).map ((picked.map (·.shop.locationUid)).idxOf ·)).Pairwise (· < ·)) ∧
    ∀ {σ : Type} (backend : Backend σ) (view : σ → Tables), backend.Atomic view →
      backend.SelectsOnly view → ∀ (s s' : Scheduler σ κ) (failure : Failure ValidationError),
        s.processBatch backend = (.error failure, s') → view s'.store = view s.store := by
  refine ⟨fun hinstalled => ?_, fun place source hinstalled hsource => ?_,
    fun backend view hatomic hselects s s' failure =>
      Scheduler.view_processBatch_failed hatomic hselects⟩
  · obtain ⟨same, hsame, hstage, hgrows⟩ := notStarted_run hbegun hinstalled hrun hmoves
    obtain rfl := Option.some.inj (hrunning.symm.trans hsame)
    rw [hfinished] at hstage
    cases hstage
    exact ⟨rfl, hgrows⟩
  · obtain ⟨same, source', hunderway⟩ :=
      underway_run htables.sound hbegun hinstalled hsource hrun hmoves
    obtain rfl := Option.some.inj (hrunning.symm.trans hunderway.running_eq)
    have hprogress := hunderway.progress
    rw [hfinished] at hprogress
    cases hprogress with
    | finished hconcluded =>
      obtain ⟨picked, heffect⟩ := hconcluded.effect
      exact ⟨picked, source', hunderway.placed, heffect, nodup_eraseDups _,
        fun _ => mem_pickedUids_iff, idxOf_eraseDups_increasing _⟩

/-- A source that names the first shop twice, with another location in between, and not the second. -/
def repeating : Source :=
  .scripted [.exactly [⟨firstShop.locationUid, 52, 13⟩, ⟨⟨.node, "9", rfl⟩, 0, 0⟩,
    ⟨firstShop.locationUid, 53, 14⟩]]

/-- A caller has begun a batch with it while two tasks wait for the first shop and one for the second. -/
def busy : Service Unit where
  scheduler := { Scheduler.served 20 with sources := [repeating] }
  running := some ⟨.caller, ⟨0, .first 20⟩, []⟩

/-- The batch picks, a task for the first shop and a third shop are added, it asks, the clock moves on,
it reads the time and writes, and one more task is added. -/
def addedMeanwhile : List (Move Unit) :=
  List.replicate 5 .stepBatch ++
    [.enqueue [firstRequest], .change (.addShop { firstShop with locationUid := ⟨.node, "3", rfl⟩ }),
      .stepBatch, .setClock .latest, .stepBatch, .stepBatch, .enqueue [firstRequest]]

theorem batchEffect_of_finished_addedMeanwhile :
    ∃ after picked source', busy.run addedMeanwhile = some after ∧
      after.tables.tasks.map (·.id.value) = [3, 4, 5] ∧
      after.tables.shops.map (·.lastValidation) = [some .latest, none, none] ∧ picked.length = 3 ∧
      BatchEffect (busy.Takes addedMeanwhile) 20 busy.tables after.tables repeating source' picked
        (.ok ⟨3, 2⟩) ∧
      ∀ (s s' : Scheduler PlannedStore Unit) (failure : Failure ValidationError),
        s.processBatch PlannedStore.backend = (.error failure, s') →
          s'.store.tables = s.store.tables := by
  have hview : (busy.run addedMeanwhile).map (fun after =>
      (after.tables.tasks.map (·.id.value), after.tables.shops.map (·.lastValidation),
        after.ended? .caller)) =
      some ([3, 4, 5], [some .latest, none, none], some (.ok ⟨3, 2⟩)) := by cbv
  obtain ⟨after, hrun, hafter⟩ := Option.map_eq_some_iff.mp hview
  obtain ⟨htasks, hafter⟩ := Prod.mk.inj hafter
  obtain ⟨hshops, hended⟩ := Prod.mk.inj hafter
  obtain ⟨batch, found, hrunning, hfinished⟩ := ended?_eq_some_iff.mp hended
  have hreachable : busy.tables.Reachable := Scheduler.reachable_threeTasks
  have hmoves : ∀ move ∈ addedMeanwhile, move.sparesRows = true ∧ move.endsBatch = false := by
    decide
  have hbegun : busy.running = some (busy.begun .caller) := rfl
  obtain ⟨-, hsourced, hplanned⟩ :=
    batchEffect_of_finished hreachable hbegun hrun hmoves hrunning hfinished
  obtain ⟨picked, source', -, heffect, -⟩ := hsourced 0 repeating rfl rfl
  have hlength : picked.length = 3 := by
    by_cases hnone : picked = []
    · obtain ⟨hidle, -⟩ := heffect.idle (by decide) hnone
      cases hidle
    · obtain ⟨answer, stamp, base, written, -, -, -, houtcome, -⟩ := heffect.done _ rfl hnone
      exact (congrArg Outcome.selected houtcome).symm
  exact ⟨after, picked, source', hrun, htasks, hshops, hlength, heffect,
    hplanned _ _ PlannedStore.atomic_backend PlannedStore.selectsOnly_backend⟩

end Service

end ShopValidation
