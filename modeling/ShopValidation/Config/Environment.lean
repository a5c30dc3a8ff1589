import ShopValidation.Text.Blank

/-!
# Environments

The named texts that configure a process.
-/

namespace ShopValidation

/-- What is set under each name. -/
structure Environment where
  value? : String → Option String

namespace Environment

/-- The environment of a list of names and texts. -/
def ofList (settings : List (String × String)) : Environment := ⟨fun name => settings.lookup name⟩

/-- The environment that has one name of another environment and no more. -/
def only (env : Environment) (key : String) : Environment :=
  ⟨fun name => if name = key then env.value? name else none⟩

/-- What is set under a name, where a blank text counts as nothing. -/
def nonBlank? (env : Environment) (key : String) : Option String :=
  (env.value? key).filter fun raw => !(Text.trim raw.toList).isEmpty

@[simp] theorem only_value? (env : Environment) (key : String) :
    (env.only key).value? key = env.value? key := by simp [only]

@[simp] theorem only_nonBlank? (env : Environment) (key : String) :
    (env.only key).nonBlank? key = env.nonBlank? key := by simp [nonBlank?]

theorem nonBlank?_eq_some_iff {env : Environment} {key raw : String} :
    env.nonBlank? key = some raw ↔ env.value? key = some raw ∧ Text.trim raw.toList ≠ [] := by
  simp [nonBlank?, Option.filter_eq_some_iff]

end Environment

end ShopValidation
