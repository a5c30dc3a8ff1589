import ShopValidation.Store.Operation

/-!
# Queueing forgotten shops

When validation starts, every shop that was never validated, or not for too long, gets a task. Shops
that have a task already are left out, so doing it again adds nothing. A maximal age that reaches
back before the earliest representable time makes no shop too old.
-/

namespace ShopValidation

/-- The time before which a validation is too old. A maximal age is in nanoseconds. -/
def cutoff? (now : Instant) (maxAge : Option Int) : Option Instant :=
  maxAge.bind fun nanos => now.shift? (-nanos)

/-- The nanoseconds of a maximal age in seconds. -/
def inNanos (maxAge : Option Int) : Option Int := maxAge.map (· * 1000000000)

/-- The time before which a validation is too old. A maximal age is in seconds. -/
def staleBefore? (now : Instant) (maxAge : Option Int) : Option Instant :=
  cutoff? now (inNanos maxAge)

/-- The task for a forgotten shop. It is attributed to the creator of the shop. -/
def Shop.reconciling (shop : Shop) (now : Instant) : NewTask :=
  ⟨shop.id, shop.creator, shop.missingReason.getD .periodicRevalidation, now⟩

/-- Queue a task for every forgotten shop, and answer how many there were. A maximal age is in
nanoseconds. -/
def enqueueForgottenNanos {σ : Type} (backend : Backend σ) (now : Instant) (maxAge : Option Int)
    (store : σ) : Ending StoreError Nat × σ :=
  match backend.perform (.needing true (cutoff? now maxAge)) store with
  | (.error failure, store) => (.error failure, store)
  | (.ok [], store) => (.ok 0, store)
  | (.ok shops, store) =>
    let (ending, store) := backend.perform (.insertBatch (shops.map (·.reconciling now))) store
    (ending.map List.length, store)

/-- Queue a task for every forgotten shop, and answer how many there were. A maximal age is in
seconds. -/
def enqueueForgotten {σ : Type} (backend : Backend σ) (now : Instant) (maxAge : Option Int)
    (store : σ) : Ending StoreError Nat × σ :=
  enqueueForgottenNanos backend now (inNanos maxAge) store

end ShopValidation
