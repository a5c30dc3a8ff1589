/-!
# Callbacks with a plan

What a callback does when it is called, as a finite plan: stop the worker, leave another callback,
crash, or something of the worker's own kind of work.
-/

namespace ShopValidation

/-- One action of a callback. -/
inductive Action (ε : Type) where
  | crash
  | stop
  | whenIdle (name : String) (actions : List (Action ε))
  | errand (errand : ε)

/-- A callback with a name and a plan, or one that nobody notices. -/
inductive Callback (ε : Type) where
  | silent
  | planned (name : String) (actions : List (Action ε))

namespace Action

variable {ε σ : Type}

/-- Carry out actions in order, up to a crash. An errand says whether it ended without one. -/
def perform (stop : σ → σ) (whenIdle : Callback ε → σ → σ) (errand : ε → σ → Bool × σ) :
    List (Action ε) → σ → σ
  | [], s => s
  | .crash :: _, s => s
  | .stop :: rest, s => perform stop whenIdle errand rest (stop s)
  | .whenIdle name actions :: rest, s =>
    perform stop whenIdle errand rest (whenIdle (.planned name actions) s)
  | .errand e :: rest, s =>
    match errand e s with
    | (true, s) => perform stop whenIdle errand rest s
    | (false, s) => s

mutual

/-- The number of actions in a plan, those of its later callbacks included, where an errand counts
for its own size too. -/
def size (weight : ε → Nat) : Action ε → Nat
  | .crash => 1
  | .stop => 1
  | .whenIdle _ actions => 2 + sizes weight actions
  | .errand e => 1 + weight e

/-- The number of actions in plans. -/
def sizes (weight : ε → Nat) : List (Action ε) → Nat
  | [] => 0
  | action :: rest => size weight action + sizes weight rest

end

end Action

namespace Callback

variable {ε : Type}

/-- The size of what a callback can bring about. -/
def size (weight : ε → Nat) : Callback ε → Nat
  | .silent => 2
  | .planned _ actions => 2 + Action.sizes weight actions

/-- The size of what callbacks can bring about together. -/
def totalSize (weight : ε → Nat) (callbacks : List (Callback ε)) : Nat :=
  callbacks.foldr (fun callback n => callback.size weight + n) 0

end Callback

end ShopValidation
