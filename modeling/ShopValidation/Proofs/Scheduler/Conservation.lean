import Mathlib
import ShopValidation.Proofs.Scheduler.InProgress

/-!
# No task is lost, and none is done twice

Where rows are deleted and coordinates written by batches alone, and batches come one at a time,
every row that was ever queued is still there, or one batch was written that is done with it. Where
moreover all sources answer from one map, every shop with a task done holds its position on the map.
-/

namespace ShopValidation

/-- The positions of an answer are those of a map. -/
def FromMap (map : LocationUid → Option Coordinates) (found : List Resolved) : Prop :=
  ∀ resolved ∈ found, map resolved.uid = some resolved.coordinates

/-- Whenever a source answers, it answers from a map. -/
def Source.AnswersFrom (source : Source) (map : LocationUid → Option Coordinates) : Prop :=
  ∀ n uids found, source.reply n uids = .answered found → FromMap map found

/-- A table of positions answers from itself. -/
theorem PositionTable.source_answersFrom (table : PositionTable) :
    table.source.AnswersFrom table.position? := by
  intro n uids found hfound resolved hresolved
  cases hfound
  obtain ⟨uid, -, hposition⟩ := List.mem_filterMap.mp hresolved
  obtain ⟨position, hsome, rfl⟩ := Option.map_eq_some_iff.mp hposition
  exact hsome

/-- Whether a move puts no source in place but one that answers from a map. -/
def Move.AnswersFrom {κ : Type} (map : LocationUid → Option Coordinates) : Move κ → Prop
  | .prepare source _ => source.AnswersFrom map
  | .replace source => source.AnswersFrom map
  | _ => True

/-- A shop holds the position that a map has for it, and the time at which it was confirmed. -/
def Shop.Holds (shop : Shop) (map : LocationUid → Option Coordinates) : Prop :=
  ∃ position, map shop.locationUid = some position ∧ shop.coordinates = some position ∧
    shop.lastValidation.isSome = true

/-- A shop is there and holds the position that a map has for it. -/
def Tables.Confirms (tables : Tables) (map : LocationUid → Option Coordinates) (id : ShopId) : Prop :=
  ∃ shop ∈ tables.shops, shop.id = id ∧ shop.Holds map

namespace Books

variable {books : Books} {map : LocationUid → Option Coordinates}

/-- Every shop for which a task is done holds the position of the map. -/
def Converged (books : Books) (map : LocationUid → Option Coordinates) : Prop :=
  ∀ written ∈ books.written, ∀ one ∈ written.applied, books.tables.Confirms map one.shopId

/-- A shop that held the position of the map, or is confirmed now, holds it afterwards. -/
theorem holds_confirmAll (hsound : books.tables.Sound) {found : List Resolved}
    {applied : List Applied} (hbacked : ∀ one ∈ applied, books.tables.Backs found one)
    (hfound : FromMap map found) {shop : Shop} (hshop : shop ∈ books.tables.shops)
    (h : shop.Holds map ∨ ∃ one ∈ applied, one.shopId = shop.id) :
    (shop.confirmAll applied).Holds map := by
  rcases shop.confirmAll_cases applied with ⟨last, hlast, hid, heq⟩ | ⟨hnone, heq⟩
  · obtain ⟨task, -, -, -, answer, hanswer, hposition, other, hother, hotherId, huid⟩ :=
      hbacked last hlast
    obtain rfl := hsound.shop_unique hother hshop (hotherId.trans hid)
    have hmap := hfound answer hanswer
    rw [← huid, hposition] at hmap
    rw [heq]
    exact ⟨last.coordinates, hmap, rfl, rfl⟩
  · rw [heq]
    rcases h with hholds | ⟨one, hone, hid⟩
    · exact hholds
    · exact absurd hid (hnone one hone)

/-- A batch that is written with positions of the map brings its shops there and leaves the others
there. -/
theorem Converged.write (h : books.Converged map) (hsound : books.tables.Sound)
    {found : List Resolved} {applied : List Applied}
    (hbacked : ∀ one ∈ applied, books.tables.Backs found one) (hfound : FromMap map found) :
    (books.write found applied).Converged map := by
  intro written hwritten one hone
  rcases List.mem_append.mp hwritten with hold | hnew
  · obtain ⟨shop, hshop, hid, hholds⟩ := h written hold one hone
    exact ⟨_, List.mem_map_of_mem hshop, Shop.confirmAll_id.trans hid,
      holds_confirmAll hsound hbacked hfound hshop (.inl hholds)⟩
  · obtain rfl := List.mem_singleton.mp hnew
    obtain ⟨task, -, -, -, answer, -, -, shop, hshop, hid, -⟩ := hbacked one hone
    exact ⟨_, List.mem_map_of_mem hshop, Shop.confirmAll_id.trans hid,
      holds_confirmAll hsound hbacked hfound hshop (.inr ⟨one, hone, hid.symm⟩)⟩

end Books

namespace Service

variable {κ : Type} {service after : Service κ} {move : Move κ}
  {map : LocationUid → Option Coordinates}

/-- All sources answer from a map, and so has the source of the batch in progress. -/
structure AnswersFrom (service : Service κ) (map : LocationUid → Option Coordinates) : Prop where
  sources : ∀ source ∈ service.scheduler.sources, source.AnswersFrom map
  found : ∀ running, service.running = some running → FromMap map running.found

/-- Another source that answers from the map may be put in place. -/
theorem AnswersFrom.install (h : service.AnswersFrom map) {source : Source}
    (hsource : source.AnswersFrom map) :
    ∀ one ∈ service.scheduler.sources ++ [source], one.AnswersFrom map :=
  List.forall_mem_append.mpr ⟨h.sources, List.forall_mem_singleton.mpr hsource⟩

/-- A batch that begins has no answer. -/
theorem fromMap_found_begun (service : Service κ) (consumer : Consumer) (running : Running)
    (h : some (service.begun consumer) = some running) : FromMap map running.found := by
  cases h
  intro resolved hresolved
  cases hresolved

/-- A step of a batch takes nothing from the source but what it answers, and leaves it the same. -/
theorem AnswersFrom.step_stage {batchMax : Nat} {now : Instant} {tables tables' : Tables}
    {source source' : Source} {stage stage' : Stage} {found : List Resolved}
    (h : Stage.Step batchMax now tables source stage stage' tables' source')
    (hsource : source.AnswersFrom map) (hfound : FromMap map found) :
    source'.AnswersFrom map ∧ FromMap map (stage'.found?.getD found) := by
  cases h with
  | ask picked =>
    refine ⟨hsource, ?_⟩
    cases hreply : (source.ask (pickedUids picked)).1 with
    | answered answer => exact hsource _ _ _ hreply
    | failed error => exact hfound
    | crashed => exact hfound
  | full picked reasons =>
    refine ⟨hsource, ?_⟩
    cases picked <;> exact hfound
  | stamp picked answer =>
    refine ⟨hsource, ?_⟩
    unfold Stage.stamped
    split <;> exact hfound
  | _ => exact ⟨hsource, hfound⟩

/-- Every move that puts in place only sources that answer from the map keeps it so. -/
theorem AnswersFrom.step (h : service.AnswersFrom map) (hstep : Step service move after)
    (hmove : move.AnswersFrom map) : after.AnswersFrom map := by
  cases hstep with
  | prepare source testing hstarting => exact ⟨h.install hmove, h.found⟩
  | replace source => exact ⟨h.install hmove, h.found⟩
  | event event worker hadmits hworker =>
    cases event with
    | beginWork => exact ⟨h.sources, fromMap_found_begun service .loop⟩
    | endWork succeeded => exact ⟨h.sources, nofun⟩
    | _ => exact ⟨h.sources, h.found⟩
  | beginBatch hfree => exact ⟨h.sources, fromMap_found_begun service .caller⟩
  | stepBatch running source source' stage tables hrunning hsource hstage =>
    have hanswers := h.sources source (List.mem_of_getElem? hsource)
    obtain ⟨hsource', hfound⟩ := step_stage hstage hanswers (h.found running hrunning)
    constructor
    · intro one hone
      rcases List.mem_or_eq_of_mem_set hone with hold | rfl
      · exact h.sources one hold
      · exact hsource'
    · intro next hnext
      cases hnext
      exact hfound
  | stepBatchLost running hrunning hsource =>
    constructor
    · exact h.sources
    · intro next hnext
      cases hnext
      exact h.found running hrunning
  | endBatch => exact ⟨h.sources, nofun⟩
  | _ => exact ⟨h.sources, h.found⟩

/-- Where rows are spared and sources answer from the map, shops with a task done go on holding its
positions. -/
theorem Step.converged (h : Step service move after) (hspares : move.sparesRows = true)
    (hfits : service.Fits) (haccounts : service.books.Accounts) (hanswers : service.AnswersFrom map)
    (hconverged : service.books.Converged map) : after.books.Converged map := by
  have hbooks := h.books hspares
  generalize hafter : after.books = books at hbooks ⊢
  cases hbooks with
  | same | enqueue => exact hconverged
  | addShop shop hfree =>
    intro written hwritten one hone
    obtain ⟨old, hold, hid, hholds⟩ := hconverged written hwritten one hone
    exact ⟨old, List.mem_append_left _ hold, hid, hholds⟩
  | write consumer source picked applied found hrunning hshops =>
    exact hconverged.write haccounts.sound (hfits _ hrunning) (hanswers.found _ hrunning)

/-- What moves keep where rows are spared and all sources answer from a map. -/
structure Converging (service : Service κ) (map : LocationUid → Option Coordinates) : Prop
    extends service.InOrder where
  answers : service.AnswersFrom map
  converged : service.books.Converged map

/-- A service that begins has nothing that could contradict the map. -/
theorem Begins.converging (h : service.Begins) (htables : service.tables.Reachable)
    (map : LocationUid → Option Coordinates) : service.Converging map := by
  have hsources := h.sources
  have hinOrder := h.inOrder htables
  obtain ⟨config, clock, tables, scheduler, -, rfl⟩ := h
  have hanswers : ∀ source ∈ scheduler.sources, source.AnswersFrom map := by
    simp [show scheduler.sources = [] from hsources]
  exact ⟨hinOrder, ⟨hanswers, nofun⟩, nofun⟩

/-- Where moreover all sources answer from a map, shops with a task done hold its positions after
every run. -/
theorem Begins.converging_run {moves : List (Move κ)} (h : service.Begins)
    (htables : service.tables.Reachable) (hrun : service.run moves = some after)
    (hspares : ∀ move ∈ moves, move.sparesRows = true)
    (hanswers : ∀ move ∈ moves, move.AnswersFrom map) : after.Converging map := by
  apply run_induct (P := (Converging · map)) hrun (h.converging htables map)
  intro move hmove s s' hs hstep
  have hspared := hspares move hmove
  exact ⟨hs.toInOrder.step hstep hspared, hs.answers.step hstep (hanswers move hmove),
    hstep.converged hspared hs.fits hs.accounts hs.answers hs.converged⟩

/-- Every row that was ever queued has an id of its own and is either in the queue as it was queued,
with no batch done with it, or off the queue, with exactly one batch done with it, which had a
position for the location of its shop. Where all sources answer from a map, the shop of every row
that is off the queue holds the position of the map, and once the queue is empty the shops of all
rows do. -/
theorem waiting_or_done_of_issued {moves : List (Move κ)} (hbegins : service.Begins)
    (htables : service.tables.Reachable) (hrun : service.run moves = some after)
    (hspares : ∀ move ∈ moves, move.sparesRows = true) :
    (after.issued.map Task.id).Nodup ∧
      (∀ task ∈ after.issued, after.books.Waiting task ∨ after.books.Done task) ∧
      ∀ map, (∀ move ∈ moves, move.AnswersFrom map) →
        after.books.Converged map ∧
        (∀ task ∈ after.issued, task ∉ after.tables.tasks → after.tables.Confirms map task.shopId) ∧
        (after.tables.tasks = [] → ∀ task ∈ after.issued, after.tables.Confirms map task.shopId) := by
  have haccounts := (hbegins.inOrder_run htables hrun hspares).accounts
  have hids : (after.issued.map Task.id).Nodup := by
    have hvalues := haccounts.issued_increasing.imp Int.ne_of_lt
    exact List.Nodup.of_map TaskId.value (by rwa [List.map_map])
  refine ⟨hids, haccounts.accounted, ?_⟩
  intro map hanswers
  have hconverged := (hbegins.converging_run htables hrun hspares hanswers).converged
  have hgone : ∀ task ∈ after.issued, task ∉ after.tables.tasks →
      after.tables.Confirms map task.shopId := by
    intro task htask hnot
    rcases haccounts.accounted task htask with hwaiting | hdone
    · exact absurd hwaiting.1 hnot
    · obtain ⟨written, hwritten, one, hone, -, hshopId, -⟩ := hdone.resolved
      exact hshopId ▸ hconverged written hwritten one hone
  have hempty : after.tables.tasks = [] →
      ∀ task ∈ after.issued, after.tables.Confirms map task.shopId := by
    intro hnil task htask
    apply hgone task htask
    simp [hnil]
  exact ⟨hconverged, hgone, hempty⟩

/-- A source that has one position for every location. -/
def everywhere : PositionTable where
  everywhere := some ⟨52, 13⟩

/-- A second task for the shop is queued while a batch is asking where it is. -/
def queuedMeanwhile : List (Move Unit) :=
  [.event .reserve, .prepare everywhere.source false, .change (.addShop firstShop),
    .enqueue [firstRequest], .announce 0, .beginBatch, .stepBatch, .stepBatch, .stepBatch, .stepBatch,
    .stepBatch, .enqueue [firstRequest], .stepBatch, .stepBatch, .stepBatch, .endBatch]

theorem waiting_or_done_of_issued_queuedMeanwhile :
    ∃ after, unconfigured.run queuedMeanwhile = some after ∧ after.issued.length = 2 ∧
      after.tables.tasks.length = 1 ∧
      (∀ task ∈ after.issued, after.books.Waiting task ∨ after.books.Done task) ∧
      ∀ task ∈ after.issued, task ∉ after.tables.tasks →
        after.tables.Confirms everywhere.position? task.shopId := by
  have hview : (unconfigured.run queuedMeanwhile).map (fun after =>
      (after.issued.length, after.tables.tasks.length)) = some (2, 1) := by cbv
  obtain ⟨after, hrun, hafter⟩ := Option.map_eq_some_iff.mp hview
  obtain ⟨hissued, htasks⟩ := Prod.mk.inj hafter
  have hspares : ∀ move ∈ queuedMeanwhile, move.sparesRows = true := by
    simp [queuedMeanwhile, Move.sparesRows]
  have hanswers : ∀ move ∈ queuedMeanwhile, move.AnswersFrom everywhere.position? := by
    simp [queuedMeanwhile, Move.AnswersFrom, everywhere.source_answersFrom]
  obtain ⟨-, haccounted, hmap⟩ :=
    waiting_or_done_of_issued begins_unconfigured .empty hrun hspares
  exact ⟨after, hrun, hissued, htasks, haccounted, (hmap _ hanswers).2.1⟩

end Service

end ShopValidation
