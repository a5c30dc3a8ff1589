import ShopValidation.Time.Duration

/-!
# Delays after failures

A policy is a list of delays, never empty. The first failure waits for the first delay; each further
failure without a success in between moves one place along the list, and stays at the last. A
success goes back to the first.
-/

namespace ShopValidation

/-- The delays, and the place of the next one. -/
structure Backoff where
  delays : List Duration
  next : Nat := 0
  delays_ne_nil : delays ≠ []
  next_lt : next < delays.length := by exact List.length_pos_iff.mpr delays_ne_nil
deriving DecidableEq

namespace Backoff

/-- The policy of a list of delays, if there are any. -/
def ofDelays? (delays : List Duration) : Option Backoff :=
  if h : delays = [] then none else some ⟨delays, 0, h, List.length_pos_iff.mpr h⟩

/-- The delay for the current failure. -/
def delay (policy : Backoff) : Duration := policy.delays.get ⟨policy.next, policy.next_lt⟩

/-- The policy after a failure. -/
def advance (policy : Backoff) : Backoff :=
  if h : policy.next + 1 < policy.delays.length then { policy with next := policy.next + 1, next_lt := h }
  else policy

/-- The policy after a success. -/
def reset (policy : Backoff) : Backoff :=
  ⟨policy.delays, 0, policy.delays_ne_nil, List.length_pos_iff.mpr policy.delays_ne_nil⟩

@[simp] theorem advance_delays (policy : Backoff) : policy.advance.delays = policy.delays := by
  unfold advance
  split <;> rfl

@[simp] theorem reset_delays (policy : Backoff) : policy.reset.delays = policy.delays := rfl

@[simp] theorem reset_next (policy : Backoff) : policy.reset.next = 0 := rfl

/-- A failure moves one place along the list and stays at its end. -/
theorem advance_next (policy : Backoff) :
    policy.advance.next = min (policy.next + 1) (policy.delays.length - 1) := by
  have := policy.next_lt
  unfold advance
  split
  · simp only
    omega
  · omega

end Backoff

end ShopValidation
