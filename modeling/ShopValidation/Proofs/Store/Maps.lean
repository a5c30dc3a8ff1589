import Mathlib.Data.List.Perm.Basic
import Mathlib.Tactic.Common
import ShopValidation.Proofs.Store.Tables

/-!
# The tables as maps

The tables are lists of rows that each carry their id. They can be kept as two maps from ids to rows
instead, where rows are inserted, changed and removed under a key, one after another, so that an
operation on several rows could be refused half way.

The maps mirror the tables: a look-up under a key finds the row with that id, and the rows in the
order of the keys are the table. Every operation gives the same answer on both and keeps them so.
-/

namespace ShopValidation

open Std (TreeMap)

/-- Shop ids are ordered by their numbers. -/
instance : Ord ShopId := ⟨compareOn ShopId.value⟩

instance : Std.TransOrd ShopId := inferInstanceAs (Std.TransCmp (compareOn ShopId.value))

instance : Std.LawfulEqOrd ShopId where
  eq_of_compare h := congrArg ShopId.mk (Std.LawfulEqOrd.eq_of_compare (α := Int) h)

/-- Task ids are ordered by their numbers. -/
instance : Ord TaskId := ⟨compareOn TaskId.value⟩

instance : Std.TransOrd TaskId := inferInstanceAs (Std.TransCmp (compareOn TaskId.value))

instance : Std.LawfulEqOrd TaskId where
  eq_of_compare h := congrArg TaskId.mk (Std.LawfulEqOrd.eq_of_compare (α := Int) h)

section Holds

variable {κ ρ : Type} [Ord κ] {key : ρ → κ} {map : TreeMap κ ρ} {rows : List ρ}

/-- The values of a map are the second parts of its entries. -/
theorem values_eq_map_toList (map : TreeMap κ ρ) : map.values = map.toList.map Prod.snd := by
  calc map.values = map.foldr (fun _ row rows => row :: rows) [] := rfl
    _ = map.toList.map Prod.snd := by rw [TreeMap.foldr_eq_foldr_toList, List.map_eq_foldr]

variable [DecidableEq κ]

/-- A map holds the rows of a table if each key finds the row that carries it. -/
def Holds (key : ρ → κ) (map : TreeMap κ ρ) (rows : List ρ) : Prop :=
  ∀ k, map[k]? = rows.find? (key · = k)

/-- Under each key stands the row of the table that carries it. -/
theorem Holds.getElem?_eq_some_iff (h : Holds key map rows) (hnodup : (rows.map key).Nodup) {k : κ}
    {row : ρ} : map[k]? = some row ↔ row ∈ rows ∧ key row = k := by
  rw [h k]
  constructor
  · intro hfind
    exact ⟨List.mem_of_find?_eq_some hfind, by simpa using List.find?_some hfind⟩
  · rintro ⟨hmem, rfl⟩
    have hsome : (rows.find? (key · = key row)).isSome = true :=
      List.find?_isSome.mpr ⟨row, hmem, decide_eq_true rfl⟩
    obtain ⟨found, hfind⟩ := Option.isSome_iff_exists.mp hsome
    have hkey : key found = key row := by simpa using List.find?_some hfind
    rw [hfind, List.inj_on_of_nodup_map hnodup (List.mem_of_find?_eq_some hfind) hmem hkey]

variable [Std.TransOrd κ]

/-- The empty map holds the empty table. -/
theorem Holds.empty : Holds key ∅ [] := fun k => by simp

/-- A key is there when a row of the table carries it. -/
theorem Holds.mem_iff (h : Holds key map rows) {k : κ} : k ∈ map ↔ ∃ row ∈ rows, key row = k := by
  rw [TreeMap.mem_iff_isSome_getElem?, h k]
  simp

variable [Std.LawfulEqOrd κ]

/-- A row under a new key goes to the end of the table. -/
theorem Holds.insert (h : Holds key map rows) (row : ρ) (hnew : ∀ old ∈ rows, key old ≠ key row) :
    Holds key (map.insert (key row) row) (rows ++ [row]) := by
  intro k
  simp only [TreeMap.getElem?_insert, Std.compare_eq_iff_eq, List.find?_append, h k]
  by_cases hkey : key row = k
  · subst hkey
    have hnone : rows.find? (key · = key row) = none := by simpa using hnew
    simp [hnone]
  · simp [hkey]

/-- A change to the row under a key is a change to the row of the table that carries it. -/
theorem Holds.modify (h : Holds key map rows) (k : κ) {f : ρ → ρ}
    (hf : ∀ row, key (f row) = key row) :
    Holds key (map.modify k f) (rows.map fun row => if key row = k then f row else row) := by
  intro k'
  have hkey : ∀ row, key (if key row = k then f row else row) = key row := by
    intro row
    split
    · exact hf row
    · rfl
  simp only [TreeMap.getElem?_modify, Std.compare_eq_iff_eq, List.find?_map, h k, h k',
    Function.comp_def, hkey]
  by_cases hk : k = k'
  · subst hk
    cases hfind : rows.find? (key · = k) with
    | none => simp
    | some row =>
      have hrow : key row = k := by simpa using List.find?_some hfind
      simp [hrow]
  · cases hfind : rows.find? (key · = k') with
    | none => simp [hk]
    | some row =>
      have hrow : key row = k' := by simpa using List.find?_some hfind
      simp [hk, hrow, Ne.symm hk]

/-- Removing a key removes the row that carries it. -/
theorem Holds.erase (h : Holds key map rows) (k : κ) :
    Holds key (map.erase k) (rows.filter (key · ≠ k)) := by
  intro k'
  simp only [TreeMap.getElem?_erase, Std.compare_eq_iff_eq, List.find?_filter, h k']
  by_cases hk : k = k'
  · subst hk
    rw [if_pos rfl, eq_comm, List.find?_eq_none]
    simp
  · rw [if_neg hk]
    congr 1
    funext row
    by_cases hrow : key row = k' <;> simp [hrow, Ne.symm hk]

/-- The rows in the order of their keys are the table, if it is in that order. -/
theorem Holds.values_eq (h : Holds key map rows)
    (hsorted : rows.Pairwise fun a b => compare (key a) (key b) = .lt) : map.values = rows := by
  have hirrefl : ∀ k : κ, compare k k ≠ .lt := by simp
  have hnodup : (rows.map key).Nodup := by
    refine List.pairwise_map.mpr (hsorted.imp fun hlt heq => ?_)
    rw [heq] at hlt
    exact hirrefl _ hlt
  have hkeyed : (rows.map fun row => (key row, row)).Pairwise
      fun a b => compare a.1 b.1 = .lt := List.pairwise_map.mpr hsorted
  have hne : ∀ a b : κ × ρ, compare a.1 b.1 = .lt → a ≠ b := by
    rintro a _ hlt rfl
    exact hirrefl _ hlt
  have hperm : map.toList.Perm (rows.map fun row => (key row, row)) := by
    refine (List.perm_ext_iff_of_nodup (TreeMap.ordered_keys_toList.imp fun hlt => hne _ _ hlt)
      (hkeyed.imp fun hlt => hne _ _ hlt)).mpr ?_
    rintro ⟨k, row⟩
    rw [TreeMap.mem_toList_iff_getElem?_eq_some, h.getElem?_eq_some_iff hnodup]
    aesop
  have hlist : map.toList = rows.map fun row => (key row, row) := by
    refine hperm.eq_of_pairwise (fun a b _ _ hab hba => ?_) TreeMap.ordered_keys_toList hkeyed
    exact absurd (Std.TransCmp.lt_trans hab hba) (hirrefl _)
  rw [values_eq_map_toList, hlist, List.map_map]
  exact List.map_id rows

end Holds

/-- The shops and the queue, each row under its id. -/
structure Maps where
  shops : TreeMap ShopId Shop := ∅
  queue : TreeMap TaskId Task := ∅
  lastShopId : Int := 0
  lastTaskId : Int := 0

namespace Maps

variable {maps : Maps} {tables : Tables}

/-- Whether a task for a shop is queued. -/
def isQueued (maps : Maps) (id : ShopId) : Bool := maps.queue.values.any (·.shopId = id)

/-- Add a shop, unless its location is taken. -/
def insertShop (maps : Maps) (shop : NewShop) : Except StoreError ShopId × Maps :=
  if maps.shops.values.any (·.locationUid = shop.locationUid) then
    (.error (.storage (.duplicateUid shop.locationUid)), maps)
  else
    let id : ShopId := ⟨maps.lastShopId + 1⟩
    (.ok id, { maps with shops := maps.shops.insert id (shop.toShop id), lastShopId := id.value })

/-- The shops that need validation, in the order of their ids. -/
def needing (maps : Maps) (excludeQueued : Bool) (staleBefore : Option Instant) : List Shop :=
  (maps.shops.values.filter (·.needsValidation staleBefore)).filter fun shop =>
    !excludeQueued || !maps.isQueued shop.id

/-- Write confirmed coordinates into the row of a shop. -/
def confirm (maps : Maps) (id : ShopId) (position : Coordinates) (time : Instant) :
    Except StoreError Unit × Maps :=
  if id ∈ maps.shops then
    (.ok (), { maps with shops := maps.shops.modify id (·.confirm position time) })
  else (.error (.shopNotFound id), maps)

/-- Queue one request under the next id. -/
def insertTask (maps : Maps) (request : NewTask) : Except StoreError TaskId × Maps :=
  if request.shopId ∈ maps.shops then
    let id : TaskId := ⟨maps.lastTaskId + 1⟩
    (.ok id,
      { maps with queue := maps.queue.insert id (request.toTask id), lastTaskId := id.value })
  else (.error (.shopNotFound request.shopId), maps)

/-- Queue requests one after another, up to the first that is refused. -/
def insertTasks (maps : Maps) : List NewTask → Except StoreError (List TaskId) × Maps
  | [] => (.ok [], maps)
  | request :: rest =>
    match maps.insertTask request with
    | (.error error, maps) => (.error error, maps)
    | (.ok id, maps) =>
      let (ids, maps) := maps.insertTasks rest
      (ids.map (id :: ·), maps)

/-- Queue requests, unless a shop is missing. -/
def insertBatch (maps : Maps) (requests : List NewTask) : Except StoreError (List TaskId) × Maps :=
  match requests.find? (·.shopId ∉ maps.shops) with
  | some missing => (.error (.shopNotFound missing.shopId), maps)
  | none => maps.insertTasks requests

/-- A task beside its shop. -/
def withShop (maps : Maps) (task : Task) : Except StoreError QueuedTask :=
  match maps.shops[task.shopId]? with
  | some shop => .ok ⟨task, shop⟩
  | none => .error (.shopNotFound task.shopId)

/-- The front of the queue of a reason, oldest first. -/
def select (maps : Maps) (reason : Reason) (limit : Nat) : Except StoreError (List QueuedTask) :=
  (((maps.queue.values.filter (·.reason = reason)).mergeSort Task.precedes).take limit).mapM
    maps.withShop

/-- Delete a task that is there. -/
def delete (maps : Maps) (id : TaskId) : Except StoreError Unit × Maps :=
  if id ∈ maps.queue then (.ok (), { maps with queue := maps.queue.erase id })
  else (.error (.taskNotFound id), maps)

/-- Write one validation and take its task off the queue, if it is still there. -/
def applyOne (maps : Maps) (applied : Applied) : Maps :=
  { maps with
    shops := maps.shops.modify applied.shopId (·.confirm applied.coordinates applied.validatedAt)
    queue := maps.queue.erase applied.taskId }

/-- Write validations, unless a shop is missing. -/
def applyBatch (maps : Maps) (applied : List Applied) : Except StoreError Unit × Maps :=
  match applied.find? (·.shopId ∉ maps.shops) with
  | some missing => (.error (.shopNotFound missing.shopId), maps)
  | none => (.ok (), applied.foldl applyOne maps)

/-- Perform an operation: its answer or the error that refuses it, and the maps after it. -/
def apply {α : Type} (maps : Maps) : Operation α → Except StoreError α × Maps
  | .insertShop shop => maps.insertShop shop
  | .getShop id => (.ok maps.shops[id]?, maps)
  | .needing excludeQueued staleBefore => (.ok (maps.needing excludeQueued staleBefore), maps)
  | .confirm id position time => maps.confirm id position time
  | .insert request => maps.insertTask request
  | .select reason limit => (maps.select reason limit, maps)
  | .delete id => maps.delete id
  | .existsAny => (.ok (!maps.queue.isEmpty), maps)
  | .count => (.ok maps.queue.size, maps)
  | .insertBatch requests => maps.insertBatch requests
  | .applyBatch applied => maps.applyBatch applied

/-- The maps as a store. -/
def backend : Backend Maps where
  perform := fun operation maps =>
    let (result, after) := maps.apply operation
    (result.mapError .refused, after)

/-- The maps hold the rows of tables that follow every rule. -/
structure Mirrors (maps : Maps) (tables : Tables) : Prop where
  sound : tables.Sound
  shops : Holds Shop.id maps.shops tables.shops
  queue : Holds Task.id maps.queue tables.tasks
  lastShopId : maps.lastShopId = tables.lastShopId
  lastTaskId : maps.lastTaskId = tables.lastTaskId

/-- Empty maps mirror empty tables. -/
theorem mirrors_empty : Mirrors {} {} := ⟨Tables.sound_empty, .empty, .empty, rfl, rfl⟩

namespace Mirrors

/-- The shops in the order of their keys are the table of shops. -/
theorem shopValues (h : Mirrors maps tables) : maps.shops.values = tables.shops := by
  refine h.shops.values_eq ?_
  exact (List.pairwise_map.mp h.sound.shops_increasing).imp fun hlt => Int.compare_eq_lt.mpr hlt

/-- The tasks in the order of their keys are the table of tasks. -/
theorem taskValues (h : Mirrors maps tables) : maps.queue.values = tables.tasks := by
  refine h.queue.values_eq ?_
  exact (List.pairwise_map.mp h.sound.tasks_increasing).imp fun hlt => Int.compare_eq_lt.mpr hlt

/-- A shop has a key when it has a row. -/
theorem mem_shops_iff (h : Mirrors maps tables) {id : ShopId} :
    id ∈ maps.shops ↔ tables.hasShop id = true := by
  rw [h.shops.mem_iff, Tables.hasShop_iff]

/-- The same shop is the first that is missing. -/
theorem find?_missing (h : Mirrors maps tables) {ρ : Type} (shopId : ρ → ShopId) (items : List ρ) :
    (items.find? (shopId · ∉ maps.shops)).map shopId =
      tables.missingShop? (items.map shopId) := by
  rw [Tables.missingShop?, List.find?_map]
  congr 2
  funext item
  simp [h.mem_shops_iff]

/-- How an operation ends on the maps if it ends so on the tables: with the same answer and maps
that mirror the tables after it, or with the same error and the maps as they were. -/
def Follows {α : Type} (maps : Maps) (result : Except StoreError α × Maps) :
    Except StoreError (α × Tables) → Prop
  | .ok (answer, after) => result.1 = .ok answer ∧ Mirrors result.2 after
  | .error error => result = (.error error, maps)

/-- Both add the same shop. -/
theorem insertShop (h : Mirrors maps tables) (shop : NewShop) :
    Follows maps (maps.insertShop shop) (tables.insertShop shop) := by
  unfold Maps.insertShop Tables.insertShop
  rw [h.shopValues, h.lastShopId]
  split
  · rfl
  · rename_i huntaken
    have hfree : ∀ old ∈ tables.shops, old.locationUid ≠ shop.locationUid := by
      simpa using huntaken
    have hsound := h.sound.addShop hfree
    have hshops := h.shops.insert (shop.toShop ⟨tables.lastShopId + 1⟩)
      fun old hold => h.sound.shop_ne_next hold
    exact ⟨rfl, hsound, hshops, h.queue, rfl, h.lastTaskId⟩

/-- Both find the same shops that need validation. -/
theorem needing (h : Mirrors maps tables) (excludeQueued : Bool) (staleBefore : Option Instant) :
    maps.needing excludeQueued staleBefore = tables.needing excludeQueued staleBefore := by
  unfold Maps.needing Tables.needing Maps.isQueued Tables.isQueued
  rw [h.shopValues, h.taskValues, List.filter_filter]
  apply List.filter_congr
  intro shop _
  rw [Bool.and_comm, Bool.not_and]

/-- Both write the same coordinates. -/
theorem confirm (h : Mirrors maps tables) (id : ShopId) (position : Coordinates) (time : Instant) :
    Mirrors { maps with shops := maps.shops.modify id (·.confirm position time) }
      (tables.confirmShop id position time) where
  sound := h.sound.mapShops (fun shop => by split <;> rfl) (fun shop => by split <;> rfl)
  shops := h.shops.modify id fun _ => rfl
  queue := h.queue
  lastShopId := h.lastShopId
  lastTaskId := h.lastTaskId

/-- Both remove the same task. -/
theorem remove (h : Mirrors maps tables) (id : TaskId) :
    Mirrors { maps with queue := maps.queue.erase id } (tables.remove id) where
  sound := h.sound.filterTasks _
  shops := h.shops
  queue := h.queue.erase id
  lastShopId := h.lastShopId
  lastTaskId := h.lastTaskId

/-- Both write the same validations. -/
theorem foldl_applyOne (h : Mirrors maps tables) (applied : List Applied) :
    Mirrors (applied.foldl Maps.applyOne maps) (applied.foldl Tables.applyOne tables) := by
  induction applied generalizing maps tables with
  | nil => exact h
  | cons one rest ih =>
    exact ih ((h.confirm one.shopId one.coordinates one.validatedAt).remove one.taskId)

/-- Both queue a request under the same id. -/
theorem insertTask (h : Mirrors maps tables) {request : NewTask}
    (hshop : tables.hasShop request.shopId = true) :
    (maps.insertTask request).1 = .ok ⟨tables.lastTaskId + 1⟩ ∧
      Mirrors (maps.insertTask request).2 (tables.enqueue [request]).2 := by
  have hsound : (tables.enqueue [request]).2.Sound := h.sound.enqueue (by simpa using hshop)
  rw [Maps.insertTask, if_pos (h.mem_shops_iff.mpr hshop), h.lastTaskId]
  rw [Tables.enqueue_singleton] at hsound ⊢
  have hqueue := h.queue.insert (request.toTask ⟨tables.lastTaskId + 1⟩)
    fun old hold => h.sound.task_ne_next hold
  exact ⟨rfl, hsound, h.shops, hqueue, h.lastShopId, rfl⟩

/-- Both queue requests under the same ids. -/
theorem insertTasks (h : Mirrors maps tables) {requests : List NewTask}
    (hshops : ∀ request ∈ requests, tables.hasShop request.shopId = true) :
    (maps.insertTasks requests).1 = .ok (tables.enqueue requests).1 ∧
      Mirrors (maps.insertTasks requests).2 (tables.enqueue requests).2 := by
  induction requests generalizing maps tables with
  | nil => exact ⟨rfl, by simpa [Tables.enqueue_eq, Tables.newRows, Maps.insertTasks] using h⟩
  | cons request rest ih =>
    obtain ⟨hid, hmirrors⟩ := h.insertTask (hshops request List.mem_cons_self)
    obtain ⟨hids, hrest⟩ := ih hmirrors fun other hother =>
      hshops other (List.mem_cons_of_mem _ hother)
    have hfirst : maps.insertTask request =
        (.ok ⟨tables.lastTaskId + 1⟩, (maps.insertTask request).2) := Prod.ext hid rfl
    rw [Maps.insertTasks, hfirst, Tables.enqueue_cons]
    exact ⟨by simp [hids, Except.map], hrest⟩

/-- Both answer with the same front of a queue. -/
theorem select (h : Mirrors maps tables) (reason : Reason) (limit : Nat) :
    maps.select reason limit = tables.select reason limit := by
  have hshop : maps.withShop = tables.withShop := by
    funext task
    unfold Maps.withShop Tables.withShop Tables.shop?
    rewrite [h.shops task.shopId]
    rfl
  rw [Maps.select, hshop, h.taskValues]
  rfl

/-- Both write coordinates, or report the shop that is missing. -/
theorem confirmShop (h : Mirrors maps tables) (id : ShopId) (position : Coordinates)
    (time : Instant) :
    Follows maps (maps.confirm id position time) (tables.apply (.confirm id position time)) := by
  simp only [Tables.apply, Maps.confirm, h.mem_shops_iff]
  split
  · exact ⟨rfl, h.confirm id position time⟩
  · rfl

/-- Both delete a task, or report that it is missing. -/
theorem delete (h : Mirrors maps tables) (id : TaskId) :
    Follows maps (maps.delete id) (tables.delete id) := by
  have hmem : id ∈ maps.queue ↔ tables.tasks.any (·.id = id) = true := by
    simp [h.queue.mem_iff]
  simp only [Maps.delete, Tables.delete, hmem]
  split
  · exact ⟨rfl, h.remove id⟩
  · rfl

/-- Both queue requests, or report the same shop as the first that is missing. -/
theorem insertBatch (h : Mirrors maps tables) (requests : List NewTask) :
    Follows maps (maps.insertBatch requests) (tables.insertBatch requests) := by
  have hmissing := h.find?_missing NewTask.shopId requests
  simp only [Maps.insertBatch, Tables.insertBatch, ← hmissing]
  cases hfind : requests.find? (·.shopId ∉ maps.shops) with
  | some missing => rfl
  | none =>
    rw [hfind] at hmissing
    have hall := Tables.missingShop?_eq_none_iff.mp hmissing.symm
    exact h.insertTasks (List.forall_mem_map.mp hall)

/-- Both write validations, or report the same shop as the first that is missing. -/
theorem applyBatch (h : Mirrors maps tables) (applied : List Applied) :
    Follows maps (maps.applyBatch applied) (tables.applyBatch applied) := by
  have hmissing := h.find?_missing Applied.shopId applied
  simp only [Maps.applyBatch, Tables.applyBatch, ← hmissing]
  cases applied.find? (·.shopId ∉ maps.shops) with
  | some missing => rfl
  | none => exact ⟨rfl, h.foldl_applyOne applied⟩

/-- Every operation goes the same way on both. -/
theorem apply {α : Type} (h : Mirrors maps tables) (operation : Operation α) :
    Follows maps (maps.apply operation) (tables.apply operation) := by
  cases operation with
  | insertShop shop => exact h.insertShop shop
  | getShop id => exact ⟨congrArg Except.ok (h.shops id), h⟩
  | needing excludeQueued staleBefore =>
    exact ⟨congrArg Except.ok (h.needing excludeQueued staleBefore), h⟩
  | confirm id position time => exact h.confirmShop id position time
  | insert request =>
    simp only [Maps.apply, Tables.apply, Tables.insert]
    split
    · rename_i hshop
      exact h.insertTask hshop
    · rename_i hshop
      exact if_neg (mt h.mem_shops_iff.mp hshop)
  | select reason limit =>
    simp only [Maps.apply, Tables.apply, h.select]
    cases tables.select reason limit with
    | ok rows => exact ⟨rfl, h⟩
    | error error => rfl
  | delete id => exact h.delete id
  | existsAny =>
    refine ⟨?_, h⟩
    rw [Maps.apply, ← TreeMap.isEmpty_toList, ← h.taskValues, values_eq_map_toList,
      List.isEmpty_map]
  | count =>
    refine ⟨?_, h⟩
    rw [Maps.apply, ← TreeMap.length_toList, ← h.taskValues, values_eq_map_toList,
      List.length_map]
  | insertBatch requests => exact h.insertBatch requests
  | applyBatch applied => exact h.applyBatch applied

/-- Maps and tables give the same answers, and the maps mirror the tables afterwards. -/
theorem perform {α : Type} (h : Mirrors maps tables) (operation : Operation α) :
    (backend.perform operation maps).1 = (Tables.backend.perform operation tables).1 ∧
      Mirrors (backend.perform operation maps).2 (Tables.backend.perform operation tables).2 := by
  have hfollows := h.apply operation
  simp only [backend, Tables.backend]
  cases happly : tables.apply operation with
  | ok pair =>
    rw [happly] at hfollows
    exact ⟨by rw [hfollows.1]; rfl, hfollows.2⟩
  | error error =>
    rw [happly] at hfollows
    obtain hfollows : maps.apply operation = (.error error, maps) := hfollows
    rw [hfollows]
    exact ⟨rfl, h⟩

end Mirrors

end Maps

end ShopValidation
