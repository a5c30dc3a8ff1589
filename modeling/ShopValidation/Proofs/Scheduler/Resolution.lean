import Mathlib.Data.List.Induction
import ShopValidation.Proofs.Scheduler.BatchStep

/-!
# From picked tasks to validations

A batch asks about the locations of the tasks that it picked, each once and in the order in which they
were first picked. Of an answer it takes the last entry for each location. The tasks whose locations
are in the answer are located, and there is one validation for each of them.
-/

namespace ShopValidation

section Duplicates

variable {α : Type} [BEq α] [LawfulBEq α]

/-- One more entry is kept if it is new. -/
theorem eraseDups_concat (l : List α) (a : α) :
    (l ++ [a]).eraseDups = l.eraseDups ++ if l.elem a then [] else [a] := by
  rw [List.eraseDups_append, List.removeAll, List.filter_singleton]
  cases l.elem a <;> rfl

/-- What is kept stands in the order of the places where it first occurred. -/
theorem idxOf_eraseDups_increasing (l : List α) :
    (l.eraseDups.map (l.idxOf ·)).Pairwise (· < ·) := by
  induction l using List.reverseRecOn with
  | nil => exact .nil
  | append_singleton l a ih =>
    have hkept : l.eraseDups.map ((l ++ [a]).idxOf ·) = l.eraseDups.map (l.idxOf ·) :=
      List.map_congr_left fun b hb => List.idxOf_append_of_mem (List.mem_eraseDups.mp hb)
    rw [eraseDups_concat, List.map_append, hkept]
    split
    · rwa [List.map_nil, List.append_nil]
    · rename_i hnew
      have hplace : (l ++ [a]).idxOf a = l.length := by
        rw [List.idxOf_append_of_notMem (fun hold => hnew (List.elem_iff.mpr hold)),
          List.idxOf_cons_self, Nat.add_zero]
      refine List.pairwise_append.mpr ⟨ih, List.pairwise_singleton _ _, fun i hi j hj => ?_⟩
      obtain ⟨b, hb, rfl⟩ := List.mem_map.mp hi
      have hlast : j = (l ++ [a]).idxOf a := List.mem_singleton.mp hj
      rw [hlast, hplace]
      exact List.idxOf_lt_length_of_mem (List.mem_eraseDups.mp hb)

/-- Without its duplicates a list has none. -/
theorem nodup_eraseDups (l : List α) : l.eraseDups.Nodup :=
  List.Nodup.of_map (l.idxOf ·) ((idxOf_eraseDups_increasing l).imp Nat.ne_of_lt)

/-- Without its duplicates a list is no longer than before. -/
theorem length_eraseDups_le (l : List α) : l.eraseDups.length ≤ l.length := by
  induction l using List.reverseRecOn with
  | nil => exact Nat.le_refl 0
  | append_singleton l a ih =>
    rw [eraseDups_concat]
    split <;> simp <;> omega

end Duplicates

variable {picked : List QueuedTask} {found : List Resolved} {queued : QueuedTask} {uid : LocationUid}

/-- The questions of a call have no duplicates and are no more than its tasks. -/
theorem pickedUids_nodup_le (picked : List QueuedTask) :
    (pickedUids picked).Nodup ∧ (pickedUids picked).length ≤ picked.length := by
  refine ⟨nodup_eraseDups _, ?_⟩
  have hle := length_eraseDups_le (picked.map (·.shop.locationUid))
  rwa [List.length_map] at hle

/-- The questions are the locations of the picked tasks. -/
theorem mem_pickedUids_iff :
    uid ∈ pickedUids picked ↔ ∃ queued ∈ picked, queued.shop.locationUid = uid := by
  simp [pickedUids]

/-- The picked tasks whose locations are in an answer. -/
def located (picked : List QueuedTask) (found : List Resolved) : List QueuedTask :=
  picked.filter fun queued => found.any (·.uid = queued.shop.locationUid)

/-- A task is located where some entry is for its location. -/
theorem mem_located_iff : queued ∈ located picked found ↔
    queued ∈ picked ∧ ∃ entry ∈ found, entry.uid = queued.shop.locationUid := by
  simp [located]

/-- An entry of an answer with no later one for the same location. -/
def LastEntry (found : List Resolved) (entry : Resolved) : Prop :=
  ∃ earlier later, found = earlier ++ entry :: later ∧ ∀ other ∈ later, other.uid ≠ entry.uid

/-- The position for a location is that of the last entry for it. -/
theorem lastPosition?_eq_some_iff {position : Coordinates} :
    lastPosition? found uid = some position ↔
      ∃ entry, LastEntry found entry ∧ entry.uid = uid ∧ entry.coordinates = position := by
  simp only [lastPosition?, Option.map_eq_some_iff, List.find?_eq_some_iff_append, decide_eq_true_eq,
    Bool.not_eq_true', decide_eq_false_iff_not, LastEntry]
  constructor
  · rintro ⟨entry, ⟨rfl, later, earlier, hreverse, hlater⟩, hposition⟩
    refine ⟨entry, ⟨earlier.reverse, later.reverse, ?_, by simpa using hlater⟩, rfl, hposition⟩
    rw [← List.reverse_reverse found, hreverse]
    simp
  · rintro ⟨entry, ⟨earlier, later, rfl, hlater⟩, rfl, hposition⟩
    exact ⟨entry, ⟨rfl, later.reverse, earlier.reverse, by simp, by simpa using hlater⟩, hposition⟩

/-- There is a position for a location where some entry is for it. -/
theorem isSome_lastPosition?_eq (found : List Resolved) (uid : LocationUid) :
    (lastPosition? found uid).isSome = found.any (·.uid = uid) := by
  rw [Bool.eq_iff_iff]
  simp [lastPosition?]

/-- There is a position for each located task. -/
theorem exists_lastPosition? (hlocated : queued ∈ located picked found) :
    ∃ position, lastPosition? found queued.shop.locationUid = some position := by
  rw [← Option.isSome_iff_exists, isSome_lastPosition?_eq]
  exact (List.mem_filter.mp hlocated).2

/-- There is one validation for each located task, in their order. -/
theorem taskIds_validations (picked : List QueuedTask) (found : List Resolved) (now : Instant) :
    (validations picked found now).map Applied.taskId = (located picked found).map (·.task.id) := by
  induction picked with
  | nil => rfl
  | cons queued picked ih =>
    have hsome := isSome_lastPosition?_eq found queued.shop.locationUid
    simp only [validations, located, List.filterMap_cons, List.filter_cons, ← hsome] at ih ⊢
    cases lastPosition? found queued.shop.locationUid with
    | none => exact ih
    | some position => exact congrArg (queued.task.id :: ·) ih

/-- There are as many validations as located tasks. -/
theorem length_validations (picked : List QueuedTask) (found : List Resolved) (now : Instant) :
    (validations picked found now).length = (located picked found).length := by
  simpa using congrArg List.length (taskIds_validations picked found now)

/-- The validations of tasks beside the rows of their shops can be written. -/
theorem Tables.applyBatch_validations {tables : Tables}
    (hshops : ∀ queued ∈ picked, queued.shop ∈ tables.shops) (found : List Resolved) (now : Instant) :
    tables.applyBatch (validations picked found now) = .ok ((), { tables with
      shops := tables.shops.map (·.confirmAll (validations picked found now))
      tasks := tables.tasks.filter (·.id ∉ (located picked found).map (·.task.id)) }) := by
  rw [applyBatch_eq_ok_iff, taskIds_validations]
  refine ⟨fun one hone => ?_, rfl⟩
  obtain ⟨queued, hqueued, position, -, rfl⟩ := mem_validations_iff.mp hone
  exact hasShop_iff.mpr ⟨queued.shop, hshops queued hqueued, rfl⟩

end ShopValidation
