import ShopValidation.Json.Value
import ShopValidation.Proofs.Json.FloatValue

/-!
# Values that are kept

A value is kept where it does not nest too deep, where its strings and the names of its fields stand
for texts, and where each number in it, at whatever depth, is one that its literal stands for.
-/

namespace ShopValidation.Json.Value

/-- Whether arrays and objects nest at most `depth` deep, and every string stands for a text. -/
def isLegible : (depth : Nat) → Value → Bool
  | _, .null => true
  | _, .bool _ => true
  | _, .number _ => true
  | _, .text content => content.isSome
  | 0, .array _ => false
  | 0, .object _ => false
  | depth + 1, .array items => items.all (isLegible depth)
  | depth + 1, .object fields => fields.all fun field => field.1.isSome && isLegible depth field.2

/-- A literal is one of the numbers in a value. -/
inductive Holds (literal : Number) : Value → Prop
  | number : Holds literal (.number literal)
  | item {items : List Value} {item : Value} (hitem : item ∈ items) (h : Holds literal item) :
    Holds literal (.array items)
  | field {fields : List (Option String × Value)} {field : Option String × Value}
    (hfield : field ∈ fields) (h : Holds literal field.2) : Holds literal (.object fields)

/-- Whether a value can be kept: it is legible, and each number in it stands for a floating-point
number. -/
structure Keepable (depth : Nat) (value : Value) : Prop where
  legible : value.isLegible depth = true
  numbers : ∀ literal, Holds literal value → ∃ x, literal.Denotes x

/-- A literal stands for a number exactly when the number that is read from it is finite. -/
theorem exists_denotes_iff {literal : Number} :
    (∃ x, literal.Denotes x) ↔ literal.isFinite = true :=
  ⟨fun ⟨_, hx⟩ => (Number.denotes_iff.mp hx).1, fun h => ⟨_, Number.denotes_iff.mpr ⟨h, rfl⟩⟩⟩

theorem holds_array_iff {literal : Number} {items : List Value} :
    Holds literal (.array items) ↔ ∃ item ∈ items, Holds literal item :=
  ⟨fun | .item hitem h => ⟨_, hitem, h⟩, fun ⟨_, hitem, h⟩ => .item hitem h⟩

theorem holds_object_iff {literal : Number} {fields : List (Option String × Value)} :
    Holds literal (.object fields) ↔ ∃ field ∈ fields, Holds literal field.2 :=
  ⟨fun | .field hfield h => ⟨_, hfield, h⟩, fun ⟨_, hfield, h⟩ => .field hfield h⟩

/-- An array is kept one level deeper than its items are. -/
theorem keepable_array_iff {depth : Nat} {items : List Value} :
    Keepable (depth + 1) (.array items) ↔ ∀ item ∈ items, Keepable depth item := by
  constructor
  · rintro ⟨hlegible, hnumbers⟩ item hitem
    rw [isLegible, List.all_eq_true] at hlegible
    exact ⟨hlegible item hitem, fun literal h => hnumbers literal (.item hitem h)⟩
  · intro h
    refine ⟨?_, fun literal hheld => ?_⟩
    · rw [isLegible, List.all_eq_true]
      exact fun item hitem => (h item hitem).legible
    · obtain ⟨item, hitem, hheld⟩ := holds_array_iff.mp hheld
      exact (h item hitem).numbers literal hheld

/-- An object is kept one level deeper than its fields are, if their names are texts. -/
theorem keepable_object_iff {depth : Nat} {fields : List (Option String × Value)} :
    Keepable (depth + 1) (.object fields) ↔
      ∀ field ∈ fields, field.1.isSome = true ∧ Keepable depth field.2 := by
  constructor
  · rintro ⟨hlegible, hnumbers⟩ field hfield
    rw [isLegible, List.all_eq_true] at hlegible
    obtain ⟨hname, hvalue⟩ := Bool.and_eq_true_iff.mp (hlegible field hfield)
    exact ⟨hname, hvalue, fun literal h => hnumbers literal (.field hfield h)⟩
  · intro h
    refine ⟨?_, fun literal hheld => ?_⟩
    · rw [isLegible, List.all_eq_true]
      exact fun field hfield => Bool.and_eq_true_iff.mpr ⟨(h field hfield).1, (h field hfield).2.legible⟩
    · obtain ⟨field, hfield, hheld⟩ := holds_object_iff.mp hheld
      exact (h field hfield).2.numbers literal hheld

/-- A value is kept exactly when it can be. -/
theorem isKeepable_iff {depth : Nat} {value : Value} :
    value.isKeepable depth = true ↔ Keepable depth value := by
  induction depth using Nat.strongRecOn generalizing value with
  | ind depth ih =>
    fun_cases isKeepable depth value with
    | case1 | case2 => exact iff_of_true rfl ⟨by rw [isLegible], fun _ h => nomatch h⟩
    | case3 _ literal =>
      rw [← exists_denotes_iff]
      exact ⟨fun h => ⟨by rw [isLegible], fun | _, .number => h⟩, fun h => h.numbers literal .number⟩
    | case4 _ content =>
      have hlegible : (Value.text content).isLegible depth = content.isSome := by rw [isLegible]
      exact ⟨fun h => ⟨hlegible.trans h, fun _ h => nomatch h⟩, fun h => hlegible.symm.trans h.legible⟩
    | case5 | case6 => exact iff_of_false Bool.false_ne_true fun h => nomatch h.legible
    | case7 depth items =>
      rw [List.all_eq_true, keepable_array_iff]
      exact forall₂_congr fun item _ => ih depth (Nat.lt_succ_self depth)
    | case8 depth fields =>
      rw [List.all_eq_true, keepable_object_iff]
      exact forall₂_congr fun field _ => by rw [Bool.and_eq_true, ih depth (Nat.lt_succ_self depth)]

end ShopValidation.Json.Value
