import ShopValidation.Proofs.Scheduler.Course

/-!
# What a batch picks and writes while rows are added

Others may add shops and tasks at every moment of a batch. Tables that have only grown hold all that
was picked from them. `Tables.Settles` says what the batch writes at its end, given what it picked, the
answer of its source and the time that it read.
-/

namespace ShopValidation

/-- How a shop stands after a batch is written. A shop of a located task has the last position for its
location and the time that was read, and any other is as it was. -/
def Shop.Settled (shop : Shop) (picked : List QueuedTask) (found : List Resolved) (stamp : Instant)
    (now : Shop) : Prop :=
  ((∃ queued ∈ located picked found, queued.task.shopId = shop.id) ∧
    ∃ entry, LastEntry found entry ∧ entry.uid = shop.locationUid ∧
      now = { shop with
        lat := some entry.lat
        lon := some entry.lon
        lastValidation := some stamp }) ∨
  (∀ queued ∈ located picked found, queued.task.shopId ≠ shop.id) ∧ now = shop

namespace Tables

variable {before now later base written : Tables} {picked rows : List QueuedTask}
  {found : List Resolved} {stamp : Instant} {queued : QueuedTask} {reason : Reason} {limit : Nat}

/-- Rows may have been added behind the others, which stand as they were. -/
structure Grows (before now : Tables) : Prop where
  shops : before.shops <+: now.shops
  tasks : before.tasks <+: now.tasks

theorem Grows.refl (tables : Tables) : tables.Grows tables where
  shops := List.prefix_refl _
  tasks := List.prefix_refl _

theorem Grows.trans (h : before.Grows now) (hlater : now.Grows later) : before.Grows later where
  shops := h.shops.trans hlater.shops
  tasks := h.tasks.trans hlater.tasks

/-- Queueing adds rows. -/
theorem grows_enqueue (tables : Tables) (requests : List NewTask) :
    tables.Grows (tables.enqueue requests).2 where
  shops := List.prefix_refl _
  tasks := List.prefix_append _ _

/-- Others who add a shop add a row, or nothing happens. -/
theorem grows_addShop (tables : Tables) (shop : NewShop) :
    tables.Grows ((Change.addShop shop).on tables) := by
  rcases Change.on_addShop_cases tables shop with ⟨-, heq⟩ | heq
  · rw [heq]
    exact ⟨List.prefix_append _ _, List.prefix_refl _⟩
  · rw [heq]
    exact .refl tables

/-- A task stands in the queue, beside the row of its shop. -/
def Holds (tables : Tables) (queued : QueuedTask) : Prop :=
  queued.task ∈ tables.tasks ∧ queued.shop ∈ tables.shops ∧ queued.shop.id = queued.task.shopId

/-- What stands in the tables stays there while they grow. -/
theorem Grows.holds (h : now.Grows later) (hqueued : now.Holds queued) : later.Holds queued :=
  ⟨h.tasks.subset hqueued.1, h.shops.subset hqueued.2.1, hqueued.2.2⟩

/-- Tasks of tables that have only grown, each once and beside the row of its shop. -/
structure Picked (before now : Tables) (picked : List QueuedTask) : Prop where
  grows : before.Grows now
  distinct : (picked.map QueuedTask.task).Nodup
  holds : ∀ queued ∈ picked, now.Holds queued

/-- Before the first pick nothing is picked. -/
theorem picked_nil (h : before.Grows now) : before.Picked now [] where
  grows := h
  distinct := .nil
  holds := List.forall_mem_nil _

/-- What was picked stays so while the tables grow. -/
theorem Picked.mono (h : before.Picked now picked) (hgrows : now.Grows later) :
    before.Picked later picked where
  grows := h.grows.trans hgrows
  distinct := h.distinct
  holds queued hqueued := hgrows.holds (h.holds queued hqueued)

/-- No task stands in a queue twice. -/
theorem Sound.queue_nodup (h : now.Sound) (reason : Reason) : (now.queue reason).Nodup :=
  (List.mergeSort_perm _ _).nodup_iff.mpr ((List.Nodup.of_map Task.id h.taskIds_nodup).filter _)

/-- The front of a queue may be picked as well where no task with its reason is picked yet. -/
theorem Picked.append (h : before.Picked now picked) (hsound : now.Sound)
    (hnew : ∀ queued ∈ picked, queued.task.reason ≠ reason)
    (hselect : now.select reason limit = .ok rows) : before.Picked now (picked ++ rows) where
  grows := h.grows
  distinct := by
    obtain ⟨htasks, -⟩ := select_eq_ok hselect
    rw [List.map_append]
    refine List.nodup_append.mpr ⟨h.distinct, ?_, fun old hold new hnewTask => ?_⟩
    · rw [htasks]
      exact (hsound.queue_nodup reason).sublist (List.take_sublist _ _)
    · obtain ⟨queued, hqueued, rfl⟩ := List.mem_map.mp hold
      obtain ⟨row, hrow, rfl⟩ := List.mem_map.mp hnewTask
      rintro hsame
      exact hnew queued hqueued (hsame ▸ (mem_of_select hselect hrow).2)
  holds queued hqueued := by
    rcases List.mem_append.mp hqueued with hold | hrow
    · exact h.holds queued hold
    · obtain ⟨hshop, hid⟩ := mem_of_shop? ((select_eq_ok hselect).2 queued hrow)
      exact ⟨(mem_of_select hselect hrow).1, hshop, hid⟩

/-- What a batch writes, given what it picked, the answer of its source, and the time that it read:
the located tasks leave the queue, their shops are settled, and nothing else changes. -/
structure Settles (base : Tables) (picked : List QueuedTask) (found : List Resolved) (stamp : Instant)
    (written : Tables) : Prop where
  tasks : written.tasks = base.tasks.filter (· ∉ (located picked found).map QueuedTask.task)
  shops : List.Forall₂ (·.Settled picked found stamp ·) base.shops written.shops

/-- The validations of picked tasks settle every shop. -/
theorem Picked.settled (h : before.Picked base picked) (hsound : base.Sound) {shop : Shop}
    (hshop : shop ∈ base.shops) :
    shop.Settled picked found stamp (shop.confirmAll (validations picked found stamp)) := by
  rcases shop.confirmAll_cases (validations picked found stamp) with
    ⟨last, hlast, hid, heq⟩ | ⟨hnone, heq⟩
  · obtain ⟨queued, hqueued, position, hposition, rfl⟩ := mem_validations_iff.mp hlast
    obtain ⟨-, hmem, htask⟩ := h.holds queued hqueued
    obtain rfl := hsound.shop_unique hmem hshop hid
    obtain ⟨entry, hentry, huid, rfl⟩ := lastPosition?_eq_some_iff.mp hposition
    have hfound : entry ∈ found := by
      obtain ⟨earlier, later, rfl, -⟩ := hentry
      exact List.mem_append_right _ List.mem_cons_self
    rw [heq]
    exact .inl ⟨⟨queued, mem_located_iff.mpr ⟨hqueued, entry, hfound, huid⟩, htask.symm⟩,
      entry, hentry, huid, rfl⟩
  · rw [heq]
    refine .inr ⟨fun queued hlocated hid => ?_, rfl⟩
    obtain ⟨position, hposition⟩ := exists_lastPosition? hlocated
    have hqueued := (mem_located_iff.mp hlocated).1
    have hone : ⟨queued.task.id, queued.shop.id, position, stamp⟩ ∈ validations picked found stamp :=
      mem_validations_iff.mpr ⟨queued, hqueued, position, hposition, rfl⟩
    exact hnone _ hone ((h.holds queued hqueued).2.2.trans hid)

/-- The validations of picked tasks can be written, which settles the tables. -/
theorem Picked.exists_applyBatch (h : before.Picked base picked) (hsound : base.Sound)
    (found : List Resolved) (stamp : Instant) :
    ∃ written, base.applyBatch (validations picked found stamp) = .ok ((), written) ∧
      base.Settles picked found stamp written := by
  refine ⟨_, applyBatch_validations (fun queued hqueued => (h.holds queued hqueued).2.1) found stamp,
    List.filter_congr fun task htask => ?_, ?_⟩
  · have hsame : task.id ∈ (located picked found).map (·.task.id) ↔
        task ∈ (located picked found).map QueuedTask.task := by
      simp only [List.mem_map]
      constructor
      · rintro ⟨queued, hlocated, hid⟩
        have hold := (h.holds queued (mem_located_iff.mp hlocated).1).1
        exact ⟨queued, hlocated, hsound.task_unique hold htask hid⟩
      · rintro ⟨queued, hlocated, rfl⟩
        exact ⟨queued, hlocated, rfl⟩
    rw [decide_eq_decide, hsame]
  · exact List.forall₂_map_right_iff.mpr
      (List.forall₂_same.mpr fun shop hshop => h.settled hsound hshop)

end Tables

end ShopValidation
