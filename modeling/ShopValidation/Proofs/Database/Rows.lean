import ShopValidation.Proofs.Database.Reading
import ShopValidation.Proofs.Database.Renaming
import ShopValidation.Proofs.Database.Transaction

/-!
# The same rows in memory and in the database

Tables in memory and tables of the database that correspond under a renaming are alike if the renaming
tells the ids in them apart and keeps their order, and if all times are whole numbers of microseconds.
What can be asked of tables that are alike has the same answer, and what can be done to them leaves
them alike.
-/

namespace ShopValidation

namespace Truth

variable (a b : Truth)

/-- A conjunction is true when both sides are. -/
@[simp] theorem holds_conj : (conj a b).holds = (a.holds && b.holds) := by
  rcases a with _ | _ | _ <;> rcases b with _ | _ | _ <;> rfl

/-- A disjunction is true when one side is. -/
@[simp] theorem holds_disj : (disj a b).holds = (a.holds || b.holds) := by
  rcases a with _ | _ | _ <;> rcases b with _ | _ | _ <;> rfl

/-- A condition that is known is true or not. -/
@[simp] theorem holds_some (b : Bool) : holds (some b) = b := by
  cases b <;> rfl

/-- One time is before another where both are there. -/
@[simp] theorem holds_isBefore (s t : Option Instant) :
    (isBefore s t).holds = t.any fun t => s.any fun s => s.isBefore t := by
  cases s <;> cases t <;> simp [isBefore, holds]

end Truth

/-- The condition of the database is true of the rows that need validation. -/
theorem ShopRecord.holds_needsValidation (record : ShopRecord) (staleBefore : Option Instant) :
    (record.needsValidation staleBefore).holds =
      (record.lat.isNone || record.lon.isNone || record.lastValidation.isNone ||
        staleBefore.any fun cutoff => record.lastValidation.any (·.isBefore cutoff)) := by
  simp only [needsValidation, Truth.holds_disj, Truth.holds_conj, Truth.isNull, Truth.holds_some,
    Truth.holds_isBefore, Truth.negate, Option.map_some, Bool.or_assoc]
  cases staleBefore <;> simp

/-- A shop needs validation if a column is null, or if its validation is too old. -/
theorem Shop.needsValidation_eq (shop : Shop) (staleBefore : Option Instant) :
    shop.needsValidation staleBefore =
      (shop.lat.isNone || shop.lon.isNone || shop.lastValidation.isNone ||
        staleBefore.any fun cutoff => shop.lastValidation.any (·.isBefore cutoff)) := by
  obtain ⟨id, uid, lat, lon, last, creator⟩ := shop
  cases lat <;> cases lon <;> cases last <;> cases staleBefore <;>
    simp [needsValidation, missingReason, coordinates, validatedBefore]

/-- Where keys are unique, the rows with a key are the first one, if there is any. -/
theorem filter_eq_toList_find? {κ ρ : Type} [DecidableEq κ] {key : ρ → κ} {rows : List ρ}
    (hnodup : (rows.map key).Nodup) (k : κ) :
    rows.filter (key · = k) = (rows.find? (key · = k)).toList := by
  induction rows with
  | nil => rfl
  | cons row rest ih =>
    rw [List.map_cons, List.nodup_cons] at hnodup
    by_cases hkey : key row = k
    · have hnone : rest.filter (key · = k) = [] := by
        rw [List.filter_eq_nil_iff]
        intro other hmem
        simp only [decide_eq_true_eq]
        rintro rfl
        exact hnodup.1 (hkey ▸ List.mem_map_of_mem hmem)
      simp [hkey, hnone]
    · simp [hkey, ih hnodup.2]

/-- Where one row is found for each item, the rows of the first items are the first rows. -/
theorem take_flatMap_of_length_eq_one {ι ρ : Type} {f : ι → List ρ} {items : List ι}
    (hone : ∀ item ∈ items, (f item).length = 1) (n : Nat) :
    (items.flatMap f).take n = (items.take n).flatMap f := by
  induction items generalizing n with
  | nil => simp
  | cons item rest ih =>
    obtain ⟨row, hrow⟩ := List.length_eq_one_iff.mp (hone item List.mem_cons_self)
    cases n with
    | zero => rfl
    | succ n =>
      have hrest := ih (fun other hmem => hone other (List.mem_cons_of_mem _ hmem)) n
      simp [hrow, hrest]

/-- Items that are all read are read in order. -/
theorem mapM_eq_ok {ι ρ : Type} {f : ι → Except StoreError ρ} {g : ι → ρ} {items : List ι}
    (hread : ∀ item ∈ items, f item = .ok (g item)) : items.mapM f = .ok (items.map g) := by
  induction items with
  | nil => rfl
  | cons item rest ih =>
    obtain ⟨hitem, hrest⟩ := List.forall_mem_cons.mp hread
    rw [List.mapM_cons, hitem, ih hrest]
    rfl

/-- Tasks whose shops are there are found beside them. -/
theorem Tables.exists_mapM_withShop {tables : Tables} {tasks : List Task}
    (hshops : ∀ task ∈ tasks, tables.hasShop task.shopId = true) :
    ∃ rows, tasks.mapM tables.withShop = .ok rows ∧
      (∀ row ∈ rows, row.task ∈ tasks ∧ row.shop ∈ tables.shops) ∧
      ∀ {ρ : Type} (f : Task → Shop → ρ),
        tasks.flatMap (fun task => (tables.shop? task.shopId).toList.map (f task)) =
          rows.map fun row => f row.task row.shop := by
  induction tasks with
  | nil => exact ⟨[], rfl, by simp, by simp⟩
  | cons task rest ih =>
    obtain ⟨hshop, hrest⟩ := List.forall_mem_cons.mp hshops
    obtain ⟨rows, hrows, hmem, hpairs⟩ := ih hrest
    rw [← isSome_shop?] at hshop
    obtain ⟨shop, hfound⟩ := Option.isSome_iff_exists.mp hshop
    refine ⟨⟨task, shop⟩ :: rows, ?_, ?_, ?_⟩
    · rw [List.mapM_cons, withShop, hfound, hrows]
      rfl
    · refine List.forall_mem_cons.mpr ⟨⟨List.mem_cons_self, (mem_of_shop? hfound).1⟩, ?_⟩
      exact fun row hrow => ⟨List.mem_cons_of_mem _ (hmem row hrow).1, (hmem row hrow).2⟩
    · intro ρ f
      simp [hfound, hpairs]

/-- Whether all times in the tables are whole numbers of microseconds. -/
structure Tables.Whole (tables : Tables) : Prop where
  shop : ∀ shop ∈ tables.shops, ∀ t ∈ shop.lastValidation, t.IsWhole
  task : ∀ task ∈ tables.tasks, task.enqueuedAt.IsWhole

/-- Memory and the database have the same rows, and the renaming is good for these. -/
structure Alike (r : Renaming) (shopIds : List ShopId) (taskIds : List TaskId) (tables : Tables)
    (contents : Contents) : Prop extends r.Corresponds tables contents where
  faithful : r.Faithful shopIds taskIds
  sound : tables.Sound
  whole : tables.Whole
  shop_mem : ∀ shop ∈ tables.shops, shop.id ∈ shopIds
  task_mem : ∀ task ∈ tables.tasks, task.id ∈ taskIds

namespace Alike

variable {r : Renaming} {shopIds : List ShopId} {taskIds : List TaskId} {tables : Tables}
  {contents : Contents}

/-- The row of a shop is known by its other id. -/
theorem shop_id_iff (h : Alike r shopIds taskIds tables contents) {shop : Shop}
    (hmem : shop ∈ tables.shops) (id : ShopId) :
    (r.shop shop.id).value = (r.shop id).value ↔ shop.id = id := by
  constructor
  · intro heq
    exact h.faithful.shop_inj _ (h.shop_mem shop hmem) id (congrArg ShopId.mk heq)
  · rintro rfl
    rfl

/-- The row of a task is known by its other id. -/
theorem task_id_iff (h : Alike r shopIds taskIds tables contents) {task : Task}
    (hmem : task ∈ tables.tasks) (id : TaskId) :
    (r.task task.id).value = (r.task id).value ↔ task.id = id := by
  constructor
  · intro heq
    exact h.faithful.task_inj _ (h.task_mem task hmem) id (congrArg TaskId.mk heq)
  · rintro rfl
    rfl

/-- The database has a row of a shop when memory has one. -/
theorem hasShop_eq (h : Alike r shopIds taskIds tables contents) (id : ShopId) :
    contents.hasShop (r.shop id) = tables.hasShop id := by
  obtain ⟨created, hshops⟩ := h.shops
  rw [Contents.hasShop, Tables.hasShop, hshops, Bool.eq_iff_iff]
  simp only [List.any_map, List.any_eq_true, Function.comp_apply, decide_eq_true_eq]
  exact exists_congr fun shop => and_congr_right fun hmem => h.shop_id_iff hmem id

/-- The database has a row of a task when memory has one. -/
theorem any_task_eq (h : Alike r shopIds taskIds tables contents) (id : TaskId) :
    contents.tasks.any (·.id = (r.task id).value) = tables.tasks.any (·.id = id) := by
  rw [h.tasks, Bool.eq_iff_iff]
  simp only [List.any_map, List.any_eq_true, Function.comp_apply, decide_eq_true_eq]
  exact exists_congr fun task => and_congr_right fun hmem => h.task_id_iff hmem id

/-- A location is taken in both or in neither. -/
theorem any_uid_eq (h : Alike r shopIds taskIds tables contents) (uid : LocationUid) :
    contents.shops.any (·.osmUid = uid.render) = tables.shops.any (·.locationUid = uid) := by
  obtain ⟨created, hshops⟩ := h.shops
  simp only [hshops, List.any_map]
  congr 1
  funext shop
  simp [Renaming.shopRecord, LocationUid.render_inj]

/-- The columns of a shop are read as that shop under its other id. -/
theorem toShop_row (h : Alike r shopIds taskIds tables contents) {shop : Shop}
    (hmem : shop ∈ tables.shops) (created : ShopId → Instant) :
    (r.shopRecord created shop).row.toShop = .ok (r.shopRow shop) :=
  ShopRecord.toShop_row rfl (h.whole.shop shop hmem)

/-- The columns of a task beside those of a shop are read as both under their other ids. -/
theorem toQueuedTask_rowWith (h : Alike r shopIds taskIds tables contents) {task : Task} {shop : Shop}
    (htask : task ∈ tables.tasks) (hshop : shop ∈ tables.shops) (created : ShopId → Instant) :
    ((r.taskRecord task).rowWith (r.shopRecord created shop)).toQueuedTask =
      .ok (r.queued ⟨task, shop⟩) :=
  TaskRecord.toQueuedTask_rowWith rfl (h.whole.task task htask) (h.toShop_row hshop created)

/-- The database has the row of a shop that memory has. -/
theorem filter_shops (h : Alike r shopIds taskIds tables contents) {created : ShopId → Instant}
    (hshops : contents.shops = tables.shops.map (r.shopRecord created)) (id : ShopId) :
    contents.shops.filter (·.id = (r.shop id).value) =
      (tables.shop? id).toList.map (r.shopRecord created) := by
  have hfilter : contents.shops.filter (·.id = (r.shop id).value) =
      (tables.shops.filter (·.id = id)).map (r.shopRecord created) := by
    rw [hshops, List.filter_map]
    congr 1
    apply List.filter_congr
    intro shop hmem
    simp only [Function.comp_apply, decide_eq_decide]
    exact h.shop_id_iff hmem id
  rw [hfilter, filter_eq_toList_find? h.sound.shopIds_nodup]
  rfl

/-- The rows in the database stand in the order of their ids. -/
theorem records_increasing (h : Alike r shopIds taskIds tables contents)
    (created : ShopId → Instant) :
    (tables.shops.map (r.shopRecord created)).Pairwise fun a b => decide (a.id ≤ b.id) = true := by
  rw [List.pairwise_map]
  refine (List.pairwise_map.mp h.sound.shops_increasing).imp_of_mem fun ha hb hlt => ?_
  exact decide_eq_true (Int.le_of_lt
    (h.faithful.shop_lt _ (h.shop_mem _ ha) _ (h.shop_mem _ hb) hlt))

/-- A task for a shop is queued in both or in neither. -/
theorem existsTaskOf_eq (h : Alike r shopIds taskIds tables contents) {shop : Shop}
    (hmem : shop ∈ tables.shops) (created : ShopId → Instant) :
    contents.existsTaskOf (r.shopRecord created shop) = some (tables.isQueued shop.id) := by
  rw [Contents.existsTaskOf, Tables.isQueued, h.tasks, List.any_map]
  congr 2
  funext task
  simp only [Function.comp_apply, decide_eq_decide]
  rw [eq_comm, @eq_comm _ task.shopId]
  exact h.shop_id_iff hmem task.shopId

/-- The same shops need validation. -/
theorem needing_eq (h : Alike r shopIds taskIds tables contents) {created : ShopId → Instant}
    (hshops : contents.shops = tables.shops.map (r.shopRecord created))
    (excludeQueued : Bool) (staleBefore : Option Instant) :
    contents.needing staleBefore excludeQueued =
      (tables.needing excludeQueued staleBefore).map (r.shopRecord created) := by
  have hfilter : contents.shops.filter (fun record =>
      (Truth.conj (record.needsValidation staleBefore)
        (Truth.disj (Truth.negate (some excludeQueued))
          (contents.existsTaskOf record).negate)).holds) =
      (tables.needing excludeQueued staleBefore).map (r.shopRecord created) := by
    rw [hshops, List.filter_map, Tables.needing]
    congr 1
    apply List.filter_congr
    intro shop hmem
    have hneeds : ((r.shopRecord created shop).needsValidation staleBefore).holds =
        shop.needsValidation staleBefore := by
      rw [ShopRecord.holds_needsValidation, Shop.needsValidation_eq]
      rfl
    simp only [Function.comp_apply, h.existsTaskOf_eq hmem created, Truth.holds_conj,
      Truth.holds_disj, Truth.negate, Option.map_some, Truth.holds_some, hneeds, Bool.not_and]
  rw [Contents.needing, hfilter]
  apply List.mergeSort_of_pairwise
  exact (h.records_increasing created).sublist (List.filter_sublist.map _)

/-- The same tasks have a reason. -/
theorem filter_tasks (h : Alike r shopIds taskIds tables contents) (reason : Reason) :
    contents.tasks.filter (·.reason = reason.code) =
      (tables.tasks.filter (·.reason = reason)).map r.taskRecord := by
  have hcode : ∀ other : Reason, other.code = reason.code ↔ other = reason := by
    intro other
    constructor
    · intro heq
      have hof := Reason.ofCode?_code other
      rw [heq, Reason.ofCode?_code] at hof
      exact (Option.some.inj hof).symm
    · exact congrArg Reason.code
  rw [h.tasks, List.filter_map]
  congr 1
  apply List.filter_congr
  intro task _
  simp only [Function.comp_apply, Renaming.taskRecord, hcode]

/-- One task comes before another in both. -/
theorem precedes_eq (h : Alike r shopIds taskIds tables contents) {a b : Task}
    (ha : a ∈ tables.tasks) (hb : b ∈ tables.tasks) :
    a.precedes b = (r.taskRecord a).precedes (r.taskRecord b) := by
  have hid : a.id.value ≤ b.id.value ↔ (r.task a.id).value ≤ (r.task b.id).value := by
    rcases Int.lt_trichotomy a.id.value b.id.value with hlt | heq | hgt
    · have hother := h.faithful.task_lt _ (h.task_mem a ha) _ (h.task_mem b hb) hlt
      omega
    · rw [show a.id = b.id from congrArg TaskId.mk heq]
      omega
    · have hother := h.faithful.task_lt _ (h.task_mem b hb) _ (h.task_mem a ha) hgt
      omega
  rw [Task.precedes, decide_eq_decide.mpr hid]
  rfl

/-- The queue of a reason is the same. -/
theorem queue_eq (h : Alike r shopIds taskIds tables contents) (reason : Reason) :
    (contents.tasks.filter (·.reason = reason.code)).mergeSort TaskRecord.precedes =
      (tables.queue reason).map r.taskRecord := by
  rw [h.filter_tasks, Tables.queue]
  symm
  apply List.map_mergeSort
  intro a ha b hb
  exact h.precedes_eq (List.mem_of_mem_filter ha) (List.mem_of_mem_filter hb)

/-- The database joins the queue of a reason with the shops. -/
theorem selectTasks_eq (h : Alike r shopIds taskIds tables contents) {created : ShopId → Instant}
    (hshops : contents.shops = tables.shops.map (r.shopRecord created)) (reason : Reason) :
    contents.selectTasks reason.code =
      (tables.queue reason).flatMap fun task => (tables.shop? task.shopId).toList.map
        fun shop => (r.taskRecord task, r.shopRecord created shop) := by
  rw [Contents.selectTasks, h.queue_eq, List.flatMap_map]
  congr 1
  funext task
  have hshop : contents.shops.filter (·.id = (r.taskRecord task).shopId) = _ :=
    h.filter_shops hshops task.shopId
  rw [hshop, List.map_map]
  rfl

/-- Each task of a queue is joined with one shop. -/
theorem length_joined_eq_one (h : Alike r shopIds taskIds tables contents)
    (created : ShopId → Instant) {reason : Reason} {task : Task} (hmem : task ∈ tables.queue reason) :
    ((tables.shop? task.shopId).toList.map
      fun shop => (r.taskRecord task, r.shopRecord created shop)).length = 1 := by
  have hshop := h.sound.task_hasShop task (Tables.mem_queue.mp hmem).1
  rw [← Tables.isSome_shop?] at hshop
  obtain ⟨shop, hfound⟩ := Option.isSome_iff_exists.mp hshop
  rw [hfound]
  rfl

/-- The front of a queue is the same, also for limits that no database can be sent. -/
theorem select_eq (h : Alike r shopIds taskIds tables contents) (reason : Reason) (limit : Nat)
    (hlength : tables.tasks.length ≤ Statement.largestLimit) :
    ∃ rows, tables.select reason limit = .ok rows ∧
      (((contents.selectTasks reason.code).take (min limit Statement.largestLimit)).map
        fun pair => pair.1.rowWith pair.2).mapM Row.toQueuedTask = .ok (rows.map r.queued) := by
  obtain ⟨created, hshops⟩ := h.shops
  have htask : ∀ task ∈ (tables.queue reason).take limit, task ∈ tables.tasks :=
    fun task hmem => (Tables.mem_queue.mp (List.mem_of_mem_take hmem)).1
  obtain ⟨rows, hrows, hmem, hpairs⟩ := Tables.exists_mapM_withShop
    (fun task ht => h.sound.task_hasShop task (htask task ht))
  have hqueue : (tables.queue reason).length ≤ Statement.largestLimit := by
    refine Nat.le_trans ?_ hlength
    rw [Tables.queue, List.length_mergeSort]
    exact List.length_filter_le _ _
  have hfront : (contents.selectTasks reason.code).take (min limit Statement.largestLimit) =
      rows.map fun row => (r.taskRecord row.task, r.shopRecord created row.shop) := by
    rw [h.selectTasks_eq hshops,
      take_flatMap_of_length_eq_one fun task => h.length_joined_eq_one created,
      ← List.take_take, List.take_of_length_le hqueue]
    exact hpairs _
  refine ⟨rows, hrows, ?_⟩
  rw [hfront, List.map_map, List.mapM_map]
  refine mapM_eq_ok fun row hrow => ?_
  exact h.toQueuedTask_rowWith (htask _ (hmem row hrow).1) (hmem row hrow).2 created

/-- The shops that need validation are read as the same shops. -/
theorem read_needing (h : Alike r shopIds taskIds tables contents) (excludeQueued : Bool)
    (staleBefore : Option Instant) :
    ((contents.needing staleBefore excludeQueued).map ShopRecord.row).mapM Row.toShop =
      .ok ((tables.needing excludeQueued staleBefore).map r.shopRow) := by
  obtain ⟨created, hshops⟩ := h.shops
  rw [h.needing_eq hshops, List.map_map, List.mapM_map]
  exact mapM_eq_ok fun shop hmem => h.toShop_row (List.mem_of_mem_filter hmem) created

/-- The row of a shop is found in both or in neither, and read as that shop. -/
theorem read_shop (h : Alike r shopIds taskIds tables contents) (id : ShopId) :
    (match (contents.shops.filter (·.id = (r.shop id).value)).map ShopRecord.row with
      | [] => .ok none
      | row :: _ => row.toShop.map some) = Except.ok ((tables.shop? id).map r.shopRow) := by
  obtain ⟨created, hshops⟩ := h.shops
  rw [h.filter_shops hshops id]
  cases hfound : tables.shop? id with
  | none => rfl
  | some shop =>
    have hread := h.toShop_row (Tables.mem_of_shop? hfound).1 created
    simp [hread, Except.map]

/-- Any task at all is one that can be selected. -/
theorem any_selectable_eq (h : Alike r shopIds taskIds tables contents) :
    (contents.tasks.any fun task => Statement.selectableCodes.contains task.reason) =
      !tables.tasks.isEmpty := by
  have hall : ∀ reason : Reason, Statement.selectableCodes.contains reason.code = true := by
    intro reason
    cases reason <;> decide
  rw [h.tasks, List.any_map]
  cases tables.tasks with
  | nil => rfl
  | cons task rest =>
    rw [List.any_cons, Function.comp_apply, Renaming.taskRecord, hall]
    rfl

/-- Coordinates may be written into both. -/
theorem confirm (h : Alike r shopIds taskIds tables contents) (id : ShopId)
    (position : Coordinates) {time : Instant} (htime : time.IsWhole) :
    Alike r shopIds taskIds (tables.confirmShop id position time)
      (contents.updateShop position time (r.shop id).value) where
  shops := by
    obtain ⟨created, hshops⟩ := h.shops
    refine ⟨created, ?_⟩
    simp only [Contents.updateShop, Tables.confirmShop, hshops, List.map_map]
    apply List.map_congr_left
    intro shop hmem
    have hid := h.shop_id_iff hmem id
    by_cases heq : shop.id = id
    · simp [Renaming.shopRecord, heq, Shop.confirm]
    · simp [Renaming.shopRecord, heq, hid]
  tasks := h.tasks
  faithful := h.faithful
  sound := h.sound.mapShops (fun shop => by split <;> rfl) (fun shop => by split <;> rfl)
  whole := by
    refine ⟨List.forall_mem_map.mpr fun shop hmem => ?_, h.whole.task⟩
    split
    · rintro t ⟨⟩
      exact htime
    · exact h.whole.shop shop hmem
  shop_mem := by
    refine List.forall_mem_map.mpr fun shop hmem => ?_
    split <;> exact h.shop_mem shop hmem
  task_mem := h.task_mem

/-- A task may be taken off both queues. -/
theorem remove (h : Alike r shopIds taskIds tables contents) (id : TaskId) :
    Alike r shopIds taskIds (tables.remove id) (contents.remove (r.task id)) where
  shops := h.shops
  tasks := by
    simp only [Contents.remove, Tables.remove, h.tasks, List.filter_map]
    congr 1
    apply List.filter_congr
    intro task hmem
    simp only [Function.comp_apply, decide_eq_decide]
    exact not_congr (h.task_id_iff hmem id)
  faithful := h.faithful
  sound := h.sound.filterTasks _
  whole := ⟨h.whole.shop, fun task hmem => h.whole.task task (List.mem_of_mem_filter hmem)⟩
  shop_mem := h.shop_mem
  task_mem task hmem := h.task_mem task (List.mem_of_mem_filter hmem)

/-- Validations may be written into both. -/
theorem foldl_applyOne (h : Alike r shopIds taskIds tables contents) {applied : List Applied}
    (htimes : ∀ one ∈ applied, one.validatedAt.IsWhole) :
    Alike r shopIds taskIds (applied.foldl Tables.applyOne tables)
      ((applied.map r.applied).foldl Contents.applyOne contents) := by
  induction applied generalizing tables contents with
  | nil => exact h
  | cons one rest ih =>
    obtain ⟨htime, hrest⟩ := List.forall_mem_cons.mp htimes
    have hone := (h.confirm one.shopId one.coordinates htime).remove one.taskId
    have heq : contents.applyOne (r.applied one) =
        (contents.updateShop one.coordinates one.validatedAt (r.shop one.shopId).value).remove
          (r.task one.taskId) := by
      rw [Contents.applyOne]
      exact congrArg (fun t => (contents.updateShop one.coordinates t _).remove _) htime.wholeMicros
    rw [List.map_cons, List.foldl_cons, List.foldl_cons, heq]
    exact ih hone hrest

/-- A shop at a free location may be added to both, under ids that go together. -/
theorem addShop (h : Alike r shopIds taskIds tables contents) {shop : NewShop}
    (hfree : ∀ old ∈ tables.shops, old.locationUid ≠ shop.locationUid)
    (htimes : ∀ t ∈ shop.lastValidation, t.IsWhole)
    (hmem : ⟨tables.lastShopId + 1⟩ ∈ shopIds) :
    Alike r shopIds taskIds
      { tables with
        shops := tables.shops ++ [shop.toShop ⟨tables.lastShopId + 1⟩]
        lastShopId := tables.lastShopId + 1 }
      { contents with
        shops := contents.shops ++
          [⟨(r.shop ⟨tables.lastShopId + 1⟩).value, shop.locationUid.render,
            shop.createdAt.wholeMicros, shop.creator, shop.lat, shop.lon,
            shop.lastValidation.map Instant.wholeMicros⟩] } where
  shops := by
    obtain ⟨created, hshops⟩ := h.shops
    refine ⟨Function.update created ⟨tables.lastShopId + 1⟩ shop.createdAt.wholeMicros, ?_⟩
    simp only [hshops, List.map_append]
    congr 1
    · apply List.map_congr_left
      intro old hold
      have hne := h.sound.shop_ne_next hold
      simp [Renaming.shopRecord, Function.update_of_ne hne]
    · simp [Renaming.shopRecord, NewShop.toShop, Instant.map_wholeMicros htimes]
  tasks := h.tasks
  faithful := h.faithful
  sound := h.sound.addShop hfree
  whole := by
    refine ⟨fun old hold => ?_, h.whole.task⟩
    rcases List.mem_append.mp hold with hold | hnew
    · exact h.whole.shop old hold
    · obtain rfl := List.mem_singleton.mp hnew
      exact htimes
  shop_mem old hold := by
    rcases List.mem_append.mp hold with hold | hnew
    · exact h.shop_mem old hold
    · obtain rfl := List.mem_singleton.mp hnew
      exact hmem
  task_mem := h.task_mem

/-- New rows are the same in both if their ids go together. -/
theorem records_newRows {requests : List NewTask} {last : Int}
    (hids : ((tables.newRows requests).map Task.id).map r.task =
      requests.mapIdx fun i _ => ⟨last + i + 1⟩)
    (htimes : ∀ request ∈ requests, request.enqueuedAt.IsWhole) :
    (tables.newRows requests).map r.taskRecord =
      (requests.map r.request).mapIdx fun i request => request.record (last + i + 1) := by
  apply List.ext_getElem?
  intro i
  have hid := congrArg (·[i]?) hids
  simp only [List.getElem?_map, List.getElem?_mapIdx, Tables.getElem?_newRows] at hid ⊢
  cases hrequest : requests[i]? with
  | none => rfl
  | some request =>
    rw [hrequest] at hid
    have hwhole := (htimes request (List.mem_of_getElem? hrequest)).wholeMicros
    simp only [Option.map_some, Option.some.injEq, NewTask.toTask] at hid
    simp [Renaming.taskRecord, NewTask.record, NewTask.toTask, Renaming.request, hid, hwhole]

/-- Requests for shops that are there may be queued in both, under ids that go together. -/
theorem enqueue (h : Alike r shopIds taskIds tables contents) {requests : List NewTask} {last : Int}
    (hshops : ∀ request ∈ requests, tables.hasShop request.shopId = true)
    (htimes : ∀ request ∈ requests, request.enqueuedAt.IsWhole)
    (hmem : ∀ id ∈ (tables.enqueue requests).1, id ∈ taskIds)
    (hids : (tables.enqueue requests).1.map r.task = requests.mapIdx fun i _ => ⟨last + i + 1⟩) :
    Alike r shopIds taskIds (tables.enqueue requests).2
      (contents.enqueue (requests.map r.request) last) where
  shops := h.shops
  tasks := by
    rw [Tables.enqueue_eq, Contents.enqueue, List.map_append, ← h.tasks,
      records_newRows hids htimes]
  faithful := h.faithful
  sound := h.sound.enqueue hshops
  whole := by
    refine ⟨h.whole.shop, fun task ht => ?_⟩
    rcases List.mem_append.mp ht with hold | hnew
    · exact h.whole.task task hold
    · have hrequest : task.toNewTask ∈ (tables.newRows requests).map Task.toNewTask :=
        List.mem_map_of_mem hnew
      rw [Tables.toNewTask_newRows] at hrequest
      exact htimes _ hrequest
  shop_mem := h.shop_mem
  task_mem task ht := by
    rcases List.mem_append.mp ht with hold | hnew
    · exact h.task_mem task hold
    · exact hmem _ (List.mem_map_of_mem hnew)

end Alike

end ShopValidation
