import ShopValidation.Proofs.Store.Maps

/-!
# What calls leave behind

A history of a store is a sequence of calls, of which some are answered and some refused. Whatever the
calls are, the rows and their keys stay consistent, ids are handed out in increasing order and never
again, and what a row says of its identity stays as it was stored.

A call that has an effect does one of three things: it adds a shop under the next id, it queues
requests under the next ids, or it revises shops and takes tasks off the queue. What follows about
histories is proved for each of these and then along the calls.
-/

namespace ShopValidation

/-- An operation, with the type of its answer. -/
structure AnyOperation where
  Answer : Type
  operation : Operation Answer

/-- The shop ids that the answer to a call hands out. -/
def AnyOperation.shopIds : (call : AnyOperation) → call.Answer → List ShopId
  | ⟨_, .insertShop _⟩, id => [id]
  | _, _ => []

/-- The task ids that the answer to a call hands out. -/
def AnyOperation.taskIds : (call : AnyOperation) → call.Answer → List TaskId
  | ⟨_, .insert _⟩, id => [id]
  | ⟨_, .insertBatch _⟩, ids => ids
  | _, _ => []

/-- What a call that ends like this hands out: nothing if it is refused. -/
def Ending.issued {ε α ι : Type} (ids : α → List ι) : Ending ε α → List ι
  | .ok answer => ids answer
  | .error _ => []

namespace Backend

variable {σ : Type} (backend : Backend σ)

/-- The store after calls. -/
def after (store : σ) : List AnyOperation → σ
  | [] => store
  | call :: later => after (backend.perform call.operation store).2 later

/-- The ids that calls hand out, in order. -/
def issued {ι : Type} (ids : (call : AnyOperation) → call.Answer → List ι) (store : σ) :
    List AnyOperation → List ι
  | [] => []
  | call :: later =>
    Ending.issued (ids call) (backend.perform call.operation store).1 ++
      issued ids (backend.perform call.operation store).2 later

theorem after_append (store : σ) (past later : List AnyOperation) :
    backend.after store (past ++ later) = backend.after (backend.after store past) later := by
  induction past generalizing store with
  | nil => rfl
  | cons call past ih => exact ih _

end Backend

/-- Numbers that were handed out in increasing order, from one up to the last. -/
structure Numbered (numbers : List Int) (last : Int) : Prop where
  increasing : numbers.Pairwise (· < ·)
  range : ∀ n ∈ numbers, 1 ≤ n ∧ n ≤ last

/-- Numbers above the last may be handed out next. -/
theorem Numbered.append {numbers more : List Int} {last last' : Int} (h : Numbered numbers last)
    (hlast : 0 ≤ last ∧ last ≤ last') (hmore : more.Pairwise (· < ·))
    (habove : ∀ n ∈ more, last < n ∧ n ≤ last') : Numbered (numbers ++ more) last' where
  increasing := by
    refine List.pairwise_append.mpr ⟨h.increasing, hmore, fun m hm n hn => ?_⟩
    have hle := (h.range m hm).2
    have hlt := (habove n hn).1
    omega
  range n hn := by
    rcases List.mem_append.mp hn with hold | hnew
    · have hrange := h.range n hold
      omega
    · have hrange := habove n hnew
      omega

namespace Tables

variable {tables after later : Tables} {shopIds newShops : List ShopId}
  {taskIds newTasks : List TaskId}

/-- What a call can do to the tables, with the ids that it hands out. -/
inductive Effect (tables : Tables) : List ShopId → List TaskId → Tables → Prop
  | added (shop : NewShop) (hfree : ∀ old ∈ tables.shops, old.locationUid ≠ shop.locationUid) :
    Effect tables [⟨tables.lastShopId + 1⟩] []
      { tables with
        shops := tables.shops ++ [shop.toShop ⟨tables.lastShopId + 1⟩]
        lastShopId := tables.lastShopId + 1 }
  | queued (requests : List NewTask)
    (hshops : ∀ request ∈ requests, tables.hasShop request.shopId = true) :
    Effect tables [] (tables.enqueue requests).1 (tables.enqueue requests).2
  | revised (f : Shop → Shop) (p : Task → Bool)
    (hf : ∀ shop, (f shop).id = shop.id ∧ (f shop).locationUid = shop.locationUid ∧
      (f shop).creator = shop.creator) :
    Effect tables [] []
      { tables with shops := tables.shops.map f, tasks := tables.tasks.filter p }

/-- Shops may be revised with no task taken off the queue. -/
theorem Effect.revisedShops (tables : Tables) (f : Shop → Shop)
    (hf : ∀ shop, (f shop).id = shop.id ∧ (f shop).locationUid = shop.locationUid ∧
      (f shop).creator = shop.creator) :
    Effect tables [] [] { tables with shops := tables.shops.map f } := by
  simpa using @Effect.revised tables f (fun _ => true) hf

/-- Tasks may be taken off the queue with no shop revised. -/
theorem Effect.filteredTasks (tables : Tables) (p : Task → Bool) :
    Effect tables [] [] { tables with tasks := tables.tasks.filter p } := by
  simpa using @Effect.revised tables id p (by simp)

/-- Nothing at all may be done. -/
theorem Effect.none (tables : Tables) : Effect tables [] [] tables := by
  simpa using Effect.filteredTasks tables (fun _ => true)

/-- Every call does one of these things. -/
theorem effect_perform (call : AnyOperation) (tables : Tables) :
    Effect tables (Ending.issued call.shopIds (backend.perform call.operation tables).1)
      (Ending.issued call.taskIds (backend.perform call.operation tables).1)
      (backend.perform call.operation tables).2 := by
  obtain ⟨Answer, operation⟩ := call
  rcases perform_cases operation tables with ⟨answer, after, happly, heq⟩ | ⟨error, -, heq⟩
  · rw [heq]
    cases operation with
    | insertShop shop =>
      obtain ⟨hfree, rfl, rfl⟩ := insertShop_eq_ok_iff.mp happly
      exact .added shop hfree
    | getShop | needing | existsAny | count =>
      cases happly
      exact .none tables
    | confirm id position time =>
      simp only [Tables.apply] at happly
      split at happly <;> cases happly
      refine .revisedShops tables _ fun shop => ?_
      split <;> exact ⟨rfl, rfl, rfl⟩
    | insert request =>
      simp only [Tables.apply, Tables.insert] at happly
      split at happly <;> cases happly
      have heffect := Effect.queued [request] (by simpa)
      rwa [enqueue_singleton] at heffect ⊢
    | select reason limit =>
      simp only [Tables.apply] at happly
      cases hselect : tables.select reason limit <;> rw [hselect] at happly <;> cases happly
      exact .none tables
    | delete id =>
      simp only [Tables.apply, Tables.delete] at happly
      split at happly <;> cases happly
      exact .filteredTasks tables _
    | insertBatch requests =>
      obtain ⟨hshops, henqueue⟩ := insertBatch_eq_ok_iff.mp happly
      have heffect := Effect.queued requests hshops
      rwa [henqueue] at heffect
    | applyBatch applied =>
      obtain ⟨-, rfl⟩ := applyBatch_eq_ok_iff.mp happly
      refine .revised (·.confirmAll applied) _ fun shop =>
        ⟨Shop.confirmAll_id, Shop.confirmAll_locationUid, ?_⟩
      unfold Shop.confirmAll
      split <;> rfl
  · rw [heq]
    exact .none tables

/-- The rules for the rows of the tables, together with the ids that were handed out so far. -/
structure Ledger (tables : Tables) (shopIds : List ShopId) (taskIds : List TaskId) : Prop where
  sound : tables.Sound
  shops : Numbered (shopIds.map ShopId.value) tables.lastShopId
  tasks : Numbered (taskIds.map TaskId.value) tables.lastTaskId
  shop_mem : ∀ shop ∈ tables.shops, shop.id ∈ shopIds
  task_mem : ∀ task ∈ tables.tasks, task.id ∈ taskIds

/-- Before the first call nothing was handed out. -/
theorem ledger_empty : Ledger {} [] [] where
  sound := sound_empty
  shops := ⟨.nil, by simp⟩
  tasks := ⟨.nil, by simp⟩
  shop_mem := by simp
  task_mem := by simp

/-- Whatever a call does, the rules are kept for the ids that were handed out by then. -/
theorem Ledger.effect (h : tables.Ledger shopIds taskIds)
    (heffect : tables.Effect newShops newTasks after) :
    after.Ledger (shopIds ++ newShops) (taskIds ++ newTasks) := by
  cases heffect with
  | added shop hfree =>
    have hnonneg := h.sound.lastShopId_nonneg
    rw [List.append_nil]
    refine ⟨h.sound.addShop hfree, ?_, h.tasks, ?_, h.task_mem⟩
    · rw [List.map_append]
      refine h.shops.append ⟨hnonneg, by dsimp only; omega⟩ (List.pairwise_singleton _ _) ?_
      intro n hn
      obtain rfl := List.mem_singleton.mp hn
      dsimp only
      omega
    · intro old hold
      rcases List.mem_append.mp hold with hold | hnew
      · exact List.mem_append_left _ (h.shop_mem old hold)
      · obtain rfl := List.mem_singleton.mp hnew
        exact List.mem_append_right _ (List.mem_singleton.mpr rfl)
  | queued requests hshops =>
    have hnonneg := h.sound.lastTaskId_nonneg
    rw [List.append_nil]
    refine ⟨h.sound.enqueue hshops, h.shops, ?_, h.shop_mem, ?_⟩
    · rw [List.map_append]
      refine h.tasks.append ⟨hnonneg, by simp only [enqueue_eq]; omega⟩ ?_ ?_
      · simpa [enqueue_eq, Function.comp_def] using newRows_increasing tables requests
      · simpa [enqueue_eq] using fun task htask => id_newRows htask
    · intro task htask
      rcases List.mem_append.mp htask with hold | hnew
      · exact List.mem_append_left _ (h.task_mem task hold)
      · exact List.mem_append_right _ (List.mem_map_of_mem hnew)
  | revised f p hf =>
    rw [List.append_nil, List.append_nil]
    refine ⟨(h.sound.mapShops (fun shop => (hf shop).1) fun shop => (hf shop).2.1).filterTasks p,
      h.shops, h.tasks, ?_, ?_⟩
    · simpa [hf] using h.shop_mem
    · exact fun task htask => h.task_mem task (List.mem_of_mem_filter htask)

/-- The rules are kept along calls. -/
theorem Ledger.after_calls (h : tables.Ledger shopIds taskIds) (calls : List AnyOperation) :
    (backend.after tables calls).Ledger
      (shopIds ++ backend.issued AnyOperation.shopIds tables calls)
      (taskIds ++ backend.issued AnyOperation.taskIds tables calls) := by
  induction calls generalizing tables shopIds taskIds with
  | nil => simpa [Backend.after, Backend.issued] using h
  | cons call calls ih =>
    have hnext := ih (h.effect (effect_perform call tables))
    rwa [List.append_assoc, List.append_assoc] at hnext

/-- Calls lead to tables that operations lead to. -/
theorem Reachable.after_calls (h : tables.Reachable) (calls : List AnyOperation) :
    (backend.after tables calls).Reachable := by
  induction calls generalizing tables with
  | nil => exact h
  | cons call calls ih =>
    apply ih
    rcases perform_cases call.operation tables with ⟨answer, after, happly, heq⟩ | ⟨error, -, heq⟩
    · rw [heq]
      exact .operation call.operation answer h happly
    · rw [heq]
      exact h

/-- What later tables have of the rows of earlier ones: all shops, which are known by the same
location and the same creator as before, and of the tasks under the ids up to the last one those that
are left, with nothing changed. -/
structure Keeps (before after : Tables) : Prop where
  shop : ∀ shop ∈ before.shops, ∃ now ∈ after.shops,
    now.id = shop.id ∧ now.locationUid = shop.locationUid ∧ now.creator = shop.creator
  task : ∀ task ∈ after.tasks, task.id.value ≤ before.lastTaskId → task ∈ before.tasks
  lastShopId : before.lastShopId ≤ after.lastShopId
  lastTaskId : before.lastTaskId ≤ after.lastTaskId

/-- Without calls all is as before. -/
theorem Keeps.refl (tables : Tables) : tables.Keeps tables where
  shop shop hshop := ⟨shop, hshop, rfl, rfl, rfl⟩
  task _ htask _ := htask
  lastShopId := Int.le_refl _
  lastTaskId := Int.le_refl _

/-- What is kept twice is kept. -/
theorem Keeps.trans (h : tables.Keeps after) (hlater : after.Keeps later) : tables.Keeps later where
  shop shop hshop := by
    obtain ⟨now, hnow, hid, huid, hcreator⟩ := h.shop shop hshop
    obtain ⟨last, hlast, hid', huid', hcreator'⟩ := hlater.shop now hnow
    exact ⟨last, hlast, hid'.trans hid, huid'.trans huid, hcreator'.trans hcreator⟩
  task task htask hle := h.task task (hlater.task task htask (Int.le_trans hle h.lastTaskId)) hle
  lastShopId := Int.le_trans h.lastShopId hlater.lastShopId
  lastTaskId := Int.le_trans h.lastTaskId hlater.lastTaskId

/-- Whatever a call does, it keeps the rows. -/
theorem Effect.keeps (heffect : tables.Effect newShops newTasks after) : tables.Keeps after := by
  cases heffect with
  | added shop hfree =>
    exact ⟨fun old hold => ⟨old, List.mem_append_left _ hold, rfl, rfl, rfl⟩,
      fun _ htask _ => htask, by dsimp only; omega, Int.le_refl _⟩
  | queued requests hshops =>
    refine ⟨fun old hold => ⟨old, hold, rfl, rfl, rfl⟩, fun task htask hle => ?_, Int.le_refl _, ?_⟩
    · rcases List.mem_append.mp htask with hold | hnew
      · exact hold
      · have habove := (id_newRows hnew).1
        omega
    · simp only [enqueue_eq]
      omega
  | revised f p hf =>
    exact ⟨fun old hold => ⟨f old, List.mem_map_of_mem hold, hf old⟩,
      fun task htask _ => List.mem_of_mem_filter htask, Int.le_refl _, Int.le_refl _⟩

/-- Calls keep the rows. -/
theorem keeps_after (tables : Tables) (calls : List AnyOperation) :
    tables.Keeps (backend.after tables calls) := by
  induction calls generalizing tables with
  | nil => exact .refl tables
  | cons call calls ih => exact (effect_perform call tables).keeps.trans (ih _)

end Tables

namespace Maps

variable {maps before now : Maps} {tables tables' : Tables}

/-- Every rule that the keys and the rows of the maps follow. -/
structure Consistent (maps : Maps) : Prop where
  shop_key : ∀ (id : ShopId) (shop : Shop), maps.shops[id]? = some shop → shop.id = id
  task_key : ∀ (id : TaskId) (task : Task), maps.queue[id]? = some task → task.id = id
  task_shop : ∀ (id : TaskId) (task : Task), maps.queue[id]? = some task →
    task.shopId ∈ maps.shops
  uid_unique : ∀ (a b : ShopId) (shop other : Shop), maps.shops[a]? = some shop →
    maps.shops[b]? = some other → shop.locationUid = other.locationUid → a = b
  shop_range : ∀ id ∈ maps.shops, 1 ≤ id.value ∧ id.value ≤ maps.lastShopId
  task_range : ∀ id ∈ maps.queue, 1 ≤ id.value ∧ id.value ≤ maps.lastTaskId

/-- What later maps have under the keys of earlier ones: every shop with its id, its location and its
creator, and under an id of a task that was handed out before the row that stood there, or nothing. -/
structure Keeps (before now : Maps) : Prop where
  shop : ∀ (id : ShopId) (shop : Shop), before.shops[id]? = some shop →
    ∃ shop' : Shop, now.shops[id]? = some shop' ∧ shop'.id = shop.id ∧
      shop'.locationUid = shop.locationUid ∧ shop'.creator = shop.creator
  task : ∀ (id : TaskId) (task : Task), now.queue[id]? = some task → id.value ≤ before.lastTaskId →
    before.queue[id]? = some task

namespace Mirrors

/-- Under a key stands the shop with that id. -/
theorem getElem?_shops_iff (h : Mirrors maps tables) {id : ShopId} {shop : Shop} :
    maps.shops[id]? = some shop ↔ shop ∈ tables.shops ∧ shop.id = id :=
  h.shops.getElem?_eq_some_iff h.sound.shopIds_nodup

/-- Under a key stands the task with that id. -/
theorem getElem?_queue_iff (h : Mirrors maps tables) {id : TaskId} {task : Task} :
    maps.queue[id]? = some task ↔ task ∈ tables.tasks ∧ task.id = id :=
  h.queue.getElem?_eq_some_iff h.sound.taskIds_nodup

/-- Maps that mirror tables follow every rule. -/
theorem consistent (h : Mirrors maps tables) : maps.Consistent where
  shop_key _ _ hshop := (h.getElem?_shops_iff.mp hshop).2
  task_key _ _ htask := (h.getElem?_queue_iff.mp htask).2
  task_shop _ task htask :=
    h.mem_shops_iff.mpr (h.sound.task_hasShop task (h.getElem?_queue_iff.mp htask).1)
  uid_unique a b shop other hshop hother huid := by
    obtain ⟨hmem, rfl⟩ := h.getElem?_shops_iff.mp hshop
    obtain ⟨hmem', rfl⟩ := h.getElem?_shops_iff.mp hother
    rw [List.inj_on_of_nodup_map h.sound.uids_nodup hmem hmem' huid]
  shop_range id hid := by
    obtain ⟨shop, hshop, rfl⟩ := h.shops.mem_iff.mp hid
    exact h.lastShopId ▸ h.sound.shop_issued shop hshop
  task_range id hid := by
    obtain ⟨task, htask, rfl⟩ := h.queue.mem_iff.mp hid
    exact h.lastTaskId ▸ h.sound.task_issued task htask

/-- Maps keep what the tables keep that they mirror. -/
theorem keeps (h : Mirrors before tables) (hnow : Mirrors now tables')
    (hkeeps : tables.Keeps tables') : before.Keeps now where
  shop id shop hshop := by
    obtain ⟨hmem, rfl⟩ := h.getElem?_shops_iff.mp hshop
    obtain ⟨shop', hmem', hid, hsame⟩ := hkeeps.shop shop hmem
    exact ⟨shop', hnow.getElem?_shops_iff.mpr ⟨hmem', hid⟩, hid, hsame⟩
  task id task htask hle := by
    obtain ⟨hmem, rfl⟩ := hnow.getElem?_queue_iff.mp htask
    exact h.getElem?_queue_iff.mpr ⟨hkeeps.task task hmem (h.lastTaskId ▸ hle), rfl⟩

/-- Maps mirror the tables after the same calls, and the same ids are handed out on the way. -/
theorem after_calls (h : Mirrors maps tables) (calls : List AnyOperation) :
    Mirrors (backend.after maps calls) (Tables.backend.after tables calls) ∧
      backend.issued AnyOperation.shopIds maps calls =
        Tables.backend.issued AnyOperation.shopIds tables calls ∧
      backend.issued AnyOperation.taskIds maps calls =
        Tables.backend.issued AnyOperation.taskIds tables calls := by
  induction calls generalizing maps tables with
  | nil => exact ⟨h, rfl, rfl⟩
  | cons call calls ih =>
    obtain ⟨hsame, hnext⟩ := h.perform call.operation
    obtain ⟨hafter, hshops, htasks⟩ := ih hnext
    simp only [Backend.after, Backend.issued, hsame, hshops, htasks, and_self, and_true]
    exact hafter

end Mirrors

/-- After every sequence of calls the maps answer as the tables do, and follow every rule: each key
is the id in its row, each task has its shop, no two shops share a location, and ids lie between one
and the last. Ids are handed out in increasing order up to the last, in these and all later calls
together, and every row stands under an id that was handed out. Later calls keep every shop with its
id, location and creator, and no id of a task that was handed out ever finds another row. -/
theorem consistent_after (past later : List AnyOperation) :
    let before := backend.after {} past
    let now := backend.after before later
    (∀ call : AnyOperation, (backend.perform call.operation before).1 =
      (Tables.backend.perform call.operation (Tables.backend.after {} past)).1) ∧
    before.Consistent ∧ before.Keeps now ∧
    Numbered ((backend.issued AnyOperation.shopIds {} (past ++ later)).map ShopId.value)
      now.lastShopId ∧
    Numbered ((backend.issued AnyOperation.taskIds {} (past ++ later)).map TaskId.value)
      now.lastTaskId ∧
    (∀ id ∈ before.shops, id ∈ backend.issued AnyOperation.shopIds {} past) ∧
    ∀ id ∈ before.queue, id ∈ backend.issued AnyOperation.taskIds {} past := by
  intro before now
  obtain ⟨hbefore, hshopIds, htaskIds⟩ := mirrors_empty.after_calls past
  obtain ⟨hnow, -, -⟩ := hbefore.after_calls later
  obtain ⟨-, hallShops, hallTasks⟩ := mirrors_empty.after_calls (past ++ later)
  have hledger := Tables.ledger_empty.after_calls past
  have hall := Tables.ledger_empty.after_calls (past ++ later)
  rw [Backend.after_append] at hall
  refine ⟨fun call => (hbefore.perform call.operation).1, hbefore.consistent,
    hbefore.keeps hnow (Tables.keeps_after _ later), ?_, ?_, ?_, ?_⟩
  · rw [hallShops, hnow.lastShopId]
    exact hall.shops
  · rw [hallTasks, hnow.lastTaskId]
    exact hall.tasks
  · intro id hid
    obtain ⟨shop, hshop, rfl⟩ := hbefore.shops.mem_iff.mp hid
    exact hshopIds ▸ hledger.shop_mem shop hshop
  · intro id hid
    obtain ⟨task, htask, rfl⟩ := hbefore.queue.mem_iff.mp hid
    exact htaskIds ▸ hledger.task_mem task htask

end Maps

end ShopValidation
