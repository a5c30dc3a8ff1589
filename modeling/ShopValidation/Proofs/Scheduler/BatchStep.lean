import ShopValidation.Proofs.Store.Tables
import ShopValidation.Scheduler.Batch

/-!
# What one step of a batch does

On tables in memory every step of a batch is a rule of `Stage.Step`. Only the last one changes the
tables, and only where it succeeds.
-/

namespace ShopValidation

variable {found : List Resolved} {picked : List QueuedTask}

/-- A position that an answer gives for a location is in the answer. -/
theorem mem_of_lastPosition? {uid : LocationUid} {position : Coordinates}
    (h : lastPosition? found uid = some position) :
    ∃ resolved ∈ found, resolved.uid = uid ∧ resolved.coordinates = position := by
  obtain ⟨resolved, hlast, hposition⟩ := Option.map_eq_some_iff.mp h
  exact ⟨resolved, List.mem_reverse.mp (List.mem_of_find?_eq_some hlast),
    by simpa using List.find?_some hlast, hposition⟩

/-- There is a validation for each picked task whose location has a position in the answer. -/
theorem mem_validations_iff {now : Instant} {one : Applied} :
    one ∈ validations picked found now ↔
      ∃ queued ∈ picked, ∃ position, lastPosition? found queued.shop.locationUid = some position ∧
        ⟨queued.task.id, queued.shop.id, position, now⟩ = one := by
  simp [validations, List.mem_filterMap]

namespace Stage

/-- The steps of a batch on tables in memory, one rule for each. -/
inductive Step (batchMax : Nat) (now : Instant) (tables : Tables) (source : Source) :
    Stage → Stage → Tables → Source → Prop where
  | full (picked : List QueuedTask) (reasons : List Reason)
    (hfull : reasons = [] ∨ batchMax ≤ picked.length) :
    Step batchMax now tables source (.selecting picked reasons) (.picked picked) tables source
  | pick (picked rows : List QueuedTask) (reason : Reason) (reasons : List Reason)
    (hroom : picked.length < batchMax)
    (hselect : tables.select reason (batchMax - picked.length) = .ok rows) :
    Step batchMax now tables source (.selecting picked (reason :: reasons))
      (.selecting (picked ++ rows) reasons) tables source
  | pickRefused (picked : List QueuedTask) (reason : Reason) (reasons : List Reason)
    (error : StoreError) (hroom : picked.length < batchMax)
    (hselect : tables.select reason (batchMax - picked.length) = .error error) :
    Step batchMax now tables source (.selecting picked (reason :: reasons))
      (.finished (.error (.refused (.store error)))) tables source
  | ask (picked : List QueuedTask) :
    Step batchMax now tables source (.resolving picked)
      (.answered picked (source.ask (pickedUids picked)).1) tables (source.ask (pickedUids picked)).2
  | stamp (picked : List QueuedTask) (found : List Resolved) :
    Step batchMax now tables source (.stamping picked found) (.stamped picked found now) tables source
  | write (picked : List QueuedTask) (applied : List Applied) (after : Tables)
    (happly : tables.applyBatch applied = .ok ((), after)) :
    Step batchMax now tables source (.applying picked applied)
      (.finished (.ok ⟨picked.length, applied.length⟩)) after source
  | writeRefused (picked : List QueuedTask) (applied : List Applied) (error : StoreError)
    (happly : tables.applyBatch applied = .error error) :
    Step batchMax now tables source (.applying picked applied)
      (.finished (.error (.refused (.store error)))) tables source
  | rest (ending : Ending ValidationError Outcome) :
    Step batchMax now tables source (.finished ending) (.finished ending) tables source

/-- Every step is one of the rules. -/
theorem Step.of_step {batchMax : Nat} {now : Instant} {tables tables' : Tables}
    {source source' : Source} {stage stage' : Stage}
    (h : stage.step Tables.backend batchMax now tables source = (stage', tables', source')) :
    Step batchMax now tables source stage stage' tables' source' := by
  cases stage with
  | selecting picked reasons =>
    cases reasons with
    | nil =>
      cases h
      exact .full picked [] (.inl rfl)
    | cons reason reasons =>
      by_cases hroom : batchMax ≤ picked.length
      · rw [step, if_pos hroom] at h
        cases h
        exact .full picked _ (.inr hroom)
      · rw [step, if_neg hroom] at h
        have hlt := Nat.lt_of_not_le hroom
        simp only [Tables.backend, Tables.apply] at h
        cases hselect : tables.select reason (batchMax - picked.length) with
        | ok rows =>
          rw [hselect] at h
          cases h
          exact .pick picked rows reason reasons hlt hselect
        | error error =>
          rw [hselect] at h
          cases h
          exact .pickRefused picked reason reasons error hlt hselect
  | resolving picked =>
    cases h
    exact .ask picked
  | stamping picked found =>
    cases h
    exact .stamp picked found
  | applying picked applied =>
    simp only [step, Tables.backend, Tables.apply] at h
    cases happly : tables.applyBatch applied with
    | ok answer =>
      rw [happly] at h
      cases h
      exact .write picked applied answer.2 happly
    | error error =>
      rw [happly] at h
      cases h
      exact .writeRefused picked applied error happly
  | finished ending =>
    cases h
    exact .rest ending

/-- Every step keeps the rules of the tables. -/
theorem Step.sound {batchMax : Nat} {now : Instant} {tables tables' : Tables}
    {source source' : Source} {stage stage' : Stage}
    (h : Step batchMax now tables source stage stage' tables' source') (hsound : tables.Sound) :
    tables'.Sound := by
  cases h with
  | write picked applied tables' happly =>
    have hwrite : tables.apply (.applyBatch applied) = .ok ((), tables') := happly
    exact hsound.apply hwrite
  | _ => exact hsound

end Stage

end ShopValidation
