import Mathlib.Data.List.Forall2
import ShopValidation.Proofs.Store.Tables

/-!
# Writing validations

A batch of validations may name a shop many times, with different coordinates, and tasks that are no
longer queued. For each shop the last validation that names it counts.

Two batches that are written one after another do what one batch of all their validations does. Hence
a batch that is written a second time changes nothing: it names the same last validations again, and
the tasks that it names are gone.

The main statement says what a batch does to each row, and which shop is reported if one is missing.
-/

namespace ShopValidation

/-- What becomes of the row of a shop when validations are written: the last one that names it gives it
its coordinates and its time, and a shop that none names stays as it is. -/
inductive Shop.Rewritten (applied : List Applied) (shop : Shop) : Shop → Prop where
  | confirmed (before later : List Applied) (last : Applied)
    (hsplit : applied = before ++ last :: later) (hnamed : last.shopId = shop.id)
    (hlast : ∀ one ∈ later, one.shopId ≠ shop.id) :
    Rewritten applied shop
      { shop with
        lat := some last.coordinates.lat
        lon := some last.coordinates.lon
        lastValidation := some last.validatedAt }
  | untouched (hother : ∀ one ∈ applied, one.shopId ≠ shop.id) : Rewritten applied shop shop

namespace Shop

/-- Validations are written as described. -/
theorem rewritten_confirmAll (applied : List Applied) (shop : Shop) :
    shop.Rewritten applied (shop.confirmAll applied) := by
  unfold confirmAll
  cases hlast : applied.reverse.find? (·.shopId = shop.id) with
  | some last =>
    obtain ⟨hnamed, later, before, hsplit, hlater⟩ := List.find?_eq_some_iff_append.mp hlast
    have happlied : applied = before.reverse ++ last :: later.reverse := by
      rw [← List.reverse_reverse applied, hsplit]
      simp
    exact .confirmed _ _ last happlied (of_decide_eq_true hnamed) (by simpa using hlater)
  | none => exact .untouched (by simpa using hlast)

/-- In validations that are listed twice the last one for a shop is the same as in the list. -/
theorem confirmAll_append_self (applied : List Applied) (shop : Shop) :
    shop.confirmAll (applied ++ applied) = shop.confirmAll applied := by
  unfold confirmAll
  rw [List.reverse_append, List.find?_append, Option.or_self]

end Shop

namespace Tables

variable {tables middle after : Tables} {applied first second : List Applied}

/-- Writing validations adds no shop and loses none. -/
theorem hasShop_foldl_applyOne (applied : List Applied) (tables : Tables) (id : ShopId) :
    (applied.foldl applyOne tables).hasShop id = tables.hasShop id := by
  simp [foldl_applyOne, hasShop, Function.comp_def]

/-- The shop that is reported is that of the first validation whose shop is missing. -/
theorem missingShop?_eq_some_iff {id : ShopId} :
    tables.missingShop? (applied.map Applied.shopId) = some id ↔
      ∃ before missing later, applied = before ++ missing :: later ∧
        (∀ one ∈ before, tables.hasShop one.shopId = true) ∧
        tables.hasShop missing.shopId = false ∧ missing.shopId = id := by
  rw [missingShop?, List.find?_map, Option.map_eq_some_iff]
  simp only [List.find?_eq_some_iff_append, Function.comp_apply, Bool.not_eq_true', Bool.not_not]
  constructor
  · rintro ⟨missing, ⟨hmissing, before, later, hsplit, hbefore⟩, hid⟩
    exact ⟨before, missing, later, hsplit, hbefore, hmissing, hid⟩
  · rintro ⟨before, missing, later, hsplit, hbefore, hmissing, hid⟩
    exact ⟨missing, ⟨hmissing, before, later, hsplit, hbefore⟩, hid⟩

/-- A batch after one that was written does what it does as the second part of a single batch. -/
theorem applyBatch_append (h : tables.applyBatch first = .ok ((), middle)) :
    tables.applyBatch (first ++ second) = middle.applyBatch second := by
  obtain ⟨hfirst, hmiddle⟩ := applyBatch_eq_ok_iff.mp h
  rw [← foldl_applyOne] at hmiddle
  have hmissing : tables.missingShop? ((first ++ second).map Applied.shopId) =
      middle.missingShop? (second.map Applied.shopId) := by
    have hnone := missingShop?_eq_none_iff.mpr (List.forall_mem_map.mpr hfirst)
    rw [missingShop?] at hnone
    simp only [missingShop?, List.map_append, List.find?_append, hnone, Option.none_or, hmiddle,
      hasShop_foldl_applyOne]
  rw [applyBatch, applyBatch, hmissing, List.foldl_append, hmiddle]

/-- Validations that are listed twice are written as if they were listed once. -/
theorem applyBatch_append_self (h : tables.applyBatch applied = .ok ((), after)) :
    tables.applyBatch (applied ++ applied) = .ok ((), after) := by
  obtain ⟨hshops, hafter⟩ := applyBatch_eq_ok_iff.mp h
  refine applyBatch_eq_ok_iff.mpr ⟨?_, ?_⟩
  · intro one hone
    exact hshops one ((List.mem_append.mp hone).elim id id)
  · simp only [hafter, Shop.confirmAll_append_self, List.map_append, List.mem_append, or_self]

/-- A batch that was written is written again without effect. -/
theorem applyBatch_again (h : tables.applyBatch applied = .ok ((), after)) :
    after.applyBatch applied = .ok ((), after) := by
  rw [← applyBatch_append h, applyBatch_append_self h]

/-- A batch of validations reports the first shop that is missing and changes nothing, or is written as
a whole if none is missing. Then the last validation of each shop counts, exactly the tasks that are
named are off the queue, all else is as before, and the same batch may be written again without
effect. -/
theorem applyBatch_exact (tables : Tables) (applied : List Applied) :
    ∃ ending after, backend.perform (.applyBatch applied) tables = (ending, after) ∧
      (∀ failure, ending = .error failure ↔
        ∃ before missing later, applied = before ++ missing :: later ∧
          (∀ one ∈ before, tables.hasShop one.shopId = true) ∧
          tables.hasShop missing.shopId = false ∧
          failure = .refused (.shopNotFound missing.shopId)) ∧
      (∀ failure, ending = .error failure → after = tables) ∧
      (ending = .ok () →
        List.Forall₂ (Shop.Rewritten applied) tables.shops after.shops ∧
        after.tasks = tables.tasks.filter (·.id ∉ applied.map Applied.taskId) ∧
        after.lastShopId = tables.lastShopId ∧ after.lastTaskId = tables.lastTaskId ∧
        backend.perform (.applyBatch applied) after = (.ok (), after)) := by
  cases hmissing : tables.missingShop? (applied.map Applied.shopId) with
  | some id =>
    have happly : tables.apply (.applyBatch applied) = .error (.shopNotFound id) := by
      rw [Tables.apply, applyBatch, hmissing]
    refine ⟨_, _, perform_of_eq_error happly, fun failure => ?_, fun _ _ => rfl, by simp⟩
    constructor
    · intro hfailure
      obtain ⟨before, missing, later, hsplit, hbefore, hnone, hid⟩ :=
        missingShop?_eq_some_iff.mp hmissing
      exact ⟨before, missing, later, hsplit, hbefore, hnone, by rw [hid]; cases hfailure; rfl⟩
    · rintro ⟨before, missing, later, hsplit, hbefore, hnone, rfl⟩
      have hfirst := missingShop?_eq_some_iff.mpr
        ⟨before, missing, later, hsplit, hbefore, hnone, rfl⟩
      rw [Option.some.inj (hmissing.symm.trans hfirst)]
  | none =>
    have hshops := List.forall_mem_map.mp (missingShop?_eq_none_iff.mp hmissing)
    obtain ⟨after, happly⟩ : ∃ after, tables.applyBatch applied = .ok ((), after) :=
      ⟨_, applyBatch_eq_ok_iff.mpr ⟨hshops, rfl⟩⟩
    have hwritten : backend.perform (.applyBatch applied) tables = (.ok (), after) :=
      perform_of_eq_ok happly
    have hagain : backend.perform (.applyBatch applied) after = (.ok (), after) :=
      perform_of_eq_ok (applyBatch_again happly)
    obtain rfl := (applyBatch_eq_ok_iff.mp happly).2
    refine ⟨_, _, hwritten, fun failure => ?_, by simp, fun _ => ⟨?_, rfl, rfl, rfl, hagain⟩⟩
    · refine iff_of_false (by simp) ?_
      rintro ⟨before, missing, later, rfl, -, hnone, -⟩
      rw [hshops missing (List.mem_append_right _ List.mem_cons_self)] at hnone
      cases hnone
    · rw [List.forall₂_map_right_iff, List.forall₂_same]
      exact fun shop _ => shop.rewritten_confirmAll applied

end Tables

end ShopValidation
