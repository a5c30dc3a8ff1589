import ShopValidation.Proofs.Config.Accepted
import ShopValidation.Proofs.Scheduler.Picking
import ShopValidation.Proofs.Scheduler.Start

/-!
# Schedulers of accepted configurations

Every configuration that is accepted makes a scheduler, with batches as large as configured, and
whatever is done with the scheduler they stay so. It can compute which shops are too old, queue the
forgotten ones and be started at any time. A batch of it crashes for one of two reasons: its source
crashed when it was asked, or no memory can be set aside for a batch as large as configured. An
accepted configuration rules out neither.
-/

namespace ShopValidation

/-- How the cutoff of a maximal age in seconds is computed: the age fits a signed word of 64 bits in
milliseconds, and so do the seconds of the cutoff. The cutoff is exact where it is representable, and
left out where it is not. -/
structure CutoffExact (now : Instant) (age : Int) : Prop where
  millis : Text.Bounds.signed64.Contains (age * 1000)
  seconds : Text.Bounds.signed64.Contains (now.second - age)
  exact : ∀ cutoff, staleBefore? now (some age) = some cutoff →
    cutoff.nanos = now.nanos - age * 1000000000
  none_iff : staleBefore? now (some age) = none ↔
    now.nanos - age * 1000000000 < earliestSecond * 1000000000

/-- The cutoff of an accepted maximal age is exact at every time. -/
theorem ValidationConfig.Accepted.cutoffExact {config : ValidationConfig} (h : config.Accepted)
    {age : Int} (hage : config.maxAge = some age) (now : Instant) : CutoffExact now age := by
  obtain ⟨days, hpos, hdays, hmillis⟩ := h.maxAge_days age hage
  have hearliest := now.earliest_le
  have hlatest := now.le_latest
  have hnano := now.nano_lt
  simp only [earliestSecond, latestSecond] at hearliest hlatest
  constructor
  · simp only [Text.Bounds.Contains, Text.Bounds.signed64]
    omega
  · simp only [Text.Bounds.Contains, Text.Bounds.signed64]
    omega
  · intro cutoff hcutoff
    exact (Instant.nanos_of_ofNanos? hcutoff).trans Int.add_neg_eq_sub
  · have hshift : staleBefore? now (some age) = Instant.ofNanos? (now.nanos + -(age * 1000000000)) :=
      rfl
    rw [hshift, Instant.ofNanos?_eq_none_iff, Instant.nanos]
    -- A day back from any time, even within a leap second, is not after the latest.
    simp only [earliestSecond, latestSecond]
    omega

namespace Scheduler

section

variable {σ κ : Type} {backend : Backend σ} {s : Scheduler σ κ} {config : ValidationConfig}

/-- A scheduler has the batch size and the maximal age of a configuration. -/
structure Configured (config : ValidationConfig) (s : Scheduler σ κ) : Prop where
  batchMax : s.batchMax = config.batchMax
  maxAge : s.maxAge = config.maxAge

/-- An accepted configuration makes a scheduler that has its batch size, its maximal age and its
delays. -/
theorem exists_ofConfig (h : config.Accepted) (clock : ManualClock) (store : σ) :
    ∃ s : Scheduler σ κ, ofConfig config clock store = .ok s ∧ s.Configured config ∧
      s.store = store ∧ s.worker.clock = clock ∧ s.worker.policy.delays = config.delays := by
  have hpolicy : ∃ policy, Backoff.ofDelays? config.delays = some policy ∧
      policy.delays = config.delays := ⟨_, dif_neg h.delays_ne_nil, rfl⟩
  obtain ⟨policy, hpolicy, hdelays⟩ := hpolicy
  refine ⟨_, by rw [ofConfig, hpolicy], ⟨?_, rfl⟩, rfl, rfl, hdelays⟩
  exact Nat.max_eq_left h.batchMax_pos

/-- A step of a batch leaves what is configured alone. -/
theorem Configured.stepBatch (h : s.Configured config) (batch : Batch) :
    (s.stepBatch backend batch).1.Configured config := by
  unfold Scheduler.stepBatch
  split <;> exact ⟨h.batchMax, h.maxAge⟩

/-- So do its steps one after another. -/
theorem Configured.stepsBatch (h : s.Configured config) (watch : Stage → σ → σ) (n : Nat)
    (batch : Batch) : (s.stepsBatch backend watch n batch).1.Configured config := by
  induction n generalizing s batch with
  | zero => exact h
  | succ n ih =>
    have hwatched : { s with store := watch batch.stage s.store }.Configured config :=
      ⟨h.batchMax, h.maxAge⟩
    exact ih (hwatched.stepBatch batch) _

/-- A whole batch leaves what is configured alone. -/
theorem Configured.processBatch (h : s.Configured config) :
    (s.processBatch backend).2.Configured config := by
  unfold Scheduler.processBatch
  cases s.beginBatch with
  | error error => exact h
  | ok batch => exact h.stepsBatch _ _ batch

/-- Queueing requests leaves what is configured alone. -/
theorem Configured.schedule (h : s.Configured config) (requests : List NewTask) :
    (s.schedule backend requests).2.Configured config := by
  unfold Scheduler.schedule
  split
  · exact h
  · rw [enqueue]
    cases backend.perform (.insertBatch requests) s.store with
    | mk ending store => cases ending <;> exact ⟨h.batchMax, h.maxAge⟩

/-- Every call leaves what is configured alone. -/
theorem Configured.perform (h : s.Configured config) (call : Call σ κ) :
    (s.perform backend call).Configured config := by
  cases call with
  | start source testing =>
    rw [Scheduler.perform]
    rcases s.start_cases backend source testing with
      ⟨-, error, hstart⟩ | ⟨-, reason, store, -, hstart⟩ | ⟨-, count, store, -, hstart⟩
    · rw [hstart]
      exact h
    · rw [hstart]
      exact ⟨h.batchMax, h.maxAge⟩
    · rw [hstart]
      exact ⟨h.batchMax, h.maxAge⟩
  | replace source =>
    rw [Scheduler.perform, replaceSource]
    split
    · exact ⟨h.batchMax, h.maxAge⟩
    · exact h
  | schedule requests => exact h.schedule requests
  | processBatch => exact h.processBatch
  | event event => exact ⟨h.batchMax, h.maxAge⟩
  | change store => exact ⟨h.batchMax, h.maxAge⟩

/-- Any number of calls leave what is configured alone. -/
theorem Configured.performAll (h : s.Configured config) (calls : List (Call σ κ)) :
    (s.performAll backend calls).Configured config := by
  induction calls generalizing s with
  | nil => exact h
  | cons call calls ih => exact ih (h.perform call)

end

variable {κ : Type} {s after : Scheduler Tables κ} {place : Nat} {source : Source}
  {picked : List QueuedTask} {env : Environment} {config : ValidationConfig}

/-- On tables in memory the forgotten shops can always be queued. -/
theorem exists_reconcile (s : Scheduler Tables κ) :
    ∃ queued after, s.reconcile Tables.backend = (.ok queued, after) := by
  obtain ⟨queued, store, heq, -⟩ :=
    s.store.enqueueForgotten_covers s.worker.clock.now s.maxAge
  exact ⟨queued, { s with store := store }, by rw [reconcile, heq]; rfl⟩

/-- On tables in memory a start goes through, or is refused at its claim. -/
theorem start_ok_or_refused (s : Scheduler Tables κ) (source : Source) (testing : Bool) :
    (s.start Tables.backend source testing).1 = .ok () ∨
      ∃ error, (s.start Tables.backend source testing).1 = .error (.refused (.worker error)) := by
  rcases s.start_cases Tables.backend source testing with
    ⟨-, error, hstart⟩ | ⟨-, failure, store, hforgotten, -⟩ | ⟨-, count, store, -, hstart⟩
  · exact .inr ⟨error, by rw [hstart]⟩
  · obtain ⟨queued, after, heq, -⟩ :=
      s.store.enqueueForgotten_covers s.worker.clock.now s.maxAge
    rw [heq] at hforgotten
    cases hforgotten
  · rw [hstart]
    exact .inl (launch_eq_ok (by simp [claimed]) rfl)

/-- A batch that asks its source crashes where the source does. -/
theorem exists_ends_resolving (hplaced : s.sources[place]? = some source)
    (hwritable : ∀ found, ∃ tables,
      s.store.applyBatch (validations picked found s.worker.clock.now) = .ok ((), tables)) :
    ∃ ending after, Ends s ⟨place, .resolving picked⟩ (some picked) ending after ∧
      (ending = .error .crashed ↔
        source.reply source.asked.length (pickedUids picked) = .crashed) := by
  let asked : Scheduler Tables κ :=
    { s with sources := s.sources.set place (source.ask (pickedUids picked)).2 }
  have hthere : asked.sources[place]? = some (source.ask (pickedUids picked)).2 :=
    List.getElem?_set_self (List.getElem?_eq_some_iff.mp hplaced).1
  have hask : s.stepBatch Tables.backend ⟨place, .resolving picked⟩ =
      (asked, ⟨place, .answered picked (source.reply source.asked.length (pickedUids picked))⟩) :=
    stepBatch_eq hplaced rfl
  -- What is left to see is how the batch ends once it has the reply.
  suffices h : ∃ ending after,
      Ends asked ⟨place, .answered picked (source.reply source.asked.length (pickedUids picked))⟩
        none ending after ∧
      (ending = .error .crashed ↔
        source.reply source.asked.length (pickedUids picked) = .crashed) by
    obtain ⟨ending, after, hends, hcrashed⟩ := h
    exact ⟨ending, after, .cons (by simp [Stage.stepsLeft]) hask hends, hcrashed⟩
  cases source.reply source.asked.length (pickedUids picked) with
  | crashed => exact ⟨_, _, ends_finished hthere rfl, by simp⟩
  | failed error => exact ⟨_, _, ends_finished hthere rfl, by simp⟩
  | answered found =>
    obtain ⟨tables, happly⟩ := hwritable found
    have hstamp : asked.stepBatch Tables.backend ⟨place, .stamping picked found⟩ =
        (asked, ⟨place, .stamped picked found s.worker.clock.now⟩) :=
      stepBatch_eq_of_source hthere rfl
    rw [Stage.stamped] at hstamp
    cases hvalidations : validations picked found s.worker.clock.now with
    | nil =>
      rw [hvalidations] at hstamp
      exact ⟨_, _, .cons (by simp [Stage.stepsLeft]) hstamp
        (ends_finished hthere rfl), by simp⟩
    | cons one rest =>
      rw [hvalidations] at hstamp happly
      exact ⟨_, _, .cons (by simp [Stage.stepsLeft]) hstamp
        (ends_applying hthere picked happly), by simp⟩

/-- A batch that fits into memory crashes where it has something to ask and its source crashes. -/
theorem processBatch_crashed_iff (hsound : s.store.Sound)
    (hfits : s.batchMax * pickedTaskBytes ≤ largestAllocation) (hinstalled : s.installed = some place)
    (hplaced : s.sources[place]? = some source) :
    (s.processBatch Tables.backend).1 = .error .crashed ↔
      s.front ≠ [] ∧ source.reply source.asked.length (pickedUids s.front) = .crashed := by
  by_cases hnone : s.front = []
  · have hends : Ends s ⟨place, .picked s.front⟩ none (.ok ⟨0, 0⟩) s := by
      rw [hnone]
      exact ends_finished hplaced rfl
    rw [(processBatch_of_front hsound hfits hinstalled hplaced hends).1]
    simp [hnone]
  · have hpick : Stage.picked s.front = .resolving s.front := by
      cases hfront : s.front with
      | nil => exact absurd hfront hnone
      | cons => rfl
    have hwritable (found : List Resolved) : ∃ tables,
        s.store.applyBatch (validations s.front found s.worker.clock.now) = .ok ((), tables) := by
      obtain ⟨tables, happly, -⟩ := hsound.exists_applyBatch (s.store.agenda.take s.batchMax) found
        s.worker.clock.now
      exact ⟨tables, happly⟩
    obtain ⟨ending, after, hends, hcrashed⟩ := exists_ends_resolving hplaced hwritable
    rw [← hpick] at hends
    rw [(processBatch_of_front hsound hfits hinstalled hplaced hends).1, hcrashed]
    simp [hnone]

/-- Every accepted configuration makes a scheduler with its batch size, whatever is done with it. The
cutoff of its maximal age is computed without overflow at every time. On all tables that operations
lead to, the forgotten shops are queued, a start does not crash, and neither does a batch without a
source. Where a full batch fits into memory, a batch never picks more than fits, and crashes only where
its source crashes. Where it does not fit, every batch crashes and nothing happens. -/
theorem accepted_config_runs (hload : ValidationConfig.load env = .ok config) :
    1 ≤ config.batchMax ∧ config.batchMax ≤ 18446744073709551615 ∧ config.delays ≠ [] ∧
    (∀ (clock : ManualClock) (tables : Tables), ∃ s₀ : Scheduler Tables κ,
      ofConfig config clock tables = .ok s₀ ∧ s₀.store = tables ∧ s₀.worker.clock = clock ∧
      s₀.worker.policy.delays = config.delays ∧
      ∀ calls, (s₀.performAll Tables.backend calls).batchMax = config.batchMax ∧
        (s₀.performAll Tables.backend calls).maxAge = config.maxAge) ∧
    (∀ now age, config.maxAge = some age → CutoffExact now age) ∧
    ∀ s : Scheduler Tables κ, s.batchMax = config.batchMax → s.maxAge = config.maxAge →
      s.store.Reachable →
      (∃ queued after, s.reconcile Tables.backend = (.ok queued, after)) ∧
      (∀ source testing, (s.start Tables.backend source testing).1 ≠ .error .crashed) ∧
      (s.installed = none → s.processBatch Tables.backend = (.error (.refused .notStarted), s)) ∧
      ∀ place source, s.installed = some place → s.sources[place]? = some source →
        (config.batchMax * pickedTaskBytes ≤ largestAllocation →
          s.PicksUntil place (.picked s.front) (.first config.batchMax) ∧
          ((s.processBatch Tables.backend).1 = .error .crashed ↔
            s.front ≠ [] ∧
              source.reply source.asked.length (pickedUids s.front) = .crashed)) ∧
        (largestAllocation < config.batchMax * pickedTaskBytes →
          s.processBatch Tables.backend = (.error .crashed, s)) := by
  have haccepted := ValidationConfig.accepted_of_load hload
  refine ⟨haccepted.batchMax_pos, haccepted.batchMax_le, haccepted.delays_ne_nil,
    fun clock tables => ?_, fun now age hage => haccepted.cutoffExact hage now,
    fun s hbatchMax _ hreachable => ⟨s.exists_reconcile, fun source testing => ?_,
      fun hnone => ?_, fun place source hinstalled hplaced => ⟨fun hfits => ?_, fun hover => ?_⟩⟩⟩
  · obtain ⟨s₀, hs₀, hconfigured, hstore, hclock, hdelays⟩ :=
      exists_ofConfig (σ := Tables) (κ := κ) haccepted clock tables
    refine ⟨s₀, hs₀, hstore, hclock, hdelays, fun calls => ?_⟩
    have hafter : (s₀.performAll Tables.backend calls).Configured config :=
      hconfigured.performAll calls
    exact ⟨hafter.batchMax, hafter.maxAge⟩
  · rcases s.start_ok_or_refused source testing with hok | ⟨error, hrefused⟩
    · simp [hok]
    · simp [hrefused]
  · simp only [processBatch, beginBatch, hnone, finishBatch]
  · rw [← hbatchMax] at hfits ⊢
    exact ⟨picksUntil_front hreachable.sound hplaced hfits,
      processBatch_crashed_iff hreachable.sound hfits hinstalled hplaced⟩
  · rw [← hbatchMax] at hover
    exact processBatch_of_overfull hinstalled hplaced hover

/-- An environment that asks for batches of two and for validation once in thirty days. -/
def monthly : Environment :=
  .ofList [(ValidationConfig.batchMaxKey, "2"), (ValidationConfig.delaysKey, "60, 120"),
    (ValidationConfig.maxAgeKey, "30")]

theorem accepted_config_runs_monthly :
    ∃ config, ValidationConfig.load monthly = .ok config ∧ config.batchMax = 2 ∧
      config.maxAge = some 2592000 ∧ CutoffExact .latest 2592000 ∧
      ({ served 2 with maxAge := some 2592000 }.processBatch Tables.backend).1 ≠ .error .crashed := by
  have hload : ValidationConfig.load monthly =
      .ok { batchMax := 2, delays := [.ofSeconds 60, .ofSeconds 120], maxAge := some 2592000 } := by
    decide +kernel
  obtain ⟨-, -, -, -, hcutoff, hruns⟩ := accepted_config_runs (κ := Unit) hload
  obtain ⟨-, -, -, hbatch⟩ :=
    hruns { served 2 with maxAge := some 2592000 } rfl rfl reachable_threeTasks
  obtain ⟨-, hcrashed⟩ := (hbatch 0 Service.everywhere.source rfl rfl).1 (by decide)
  refine ⟨_, hload, rfl, rfl, hcutoff .latest 2592000 rfl, fun hending => ?_⟩
  cases (hcrashed.mp hending).2

/-- An environment that asks for batches as large as can be written. -/
def unlimited : Environment :=
  .ofList [(ValidationConfig.batchMaxKey, "18446744073709551615")]

theorem not_accepted_config_runs :
    ¬∀ (env : Environment) (config : ValidationConfig) (s : Scheduler Tables Unit) (place : Nat)
      (source : Source), ValidationConfig.load env = .ok config → s.batchMax = config.batchMax →
      s.maxAge = config.maxAge → s.store.Reachable → s.installed = some place →
      s.sources[place]? = some source → source.Complete →
      (s.processBatch Tables.backend).1 ≠ .error .crashed := by
  intro h
  have hload : ValidationConfig.load unlimited = .ok { batchMax := 18446744073709551615 } := by
    decide +kernel
  have hover : largestAllocation < (served 18446744073709551615).batchMax * pickedTaskBytes := by
    decide
  refine h unlimited _ (served 18446744073709551615) 0 _ hload rfl rfl reachable_threeTasks rfl rfl
    (PositionTable.complete_source rfl) ?_
  rw [processBatch_of_overfull rfl rfl hover]

end Scheduler

end ShopValidation
