import ShopValidation.Config.Setting

/-!
# The format of log lines

Log lines are written for machines unless the environment asks for a form for people.
-/

namespace ShopValidation

/-- The form in which log lines are written. -/
inductive LogFormat where
  | json
  | pretty
deriving DecidableEq, Repr

namespace LogFormat

def key : String := "LOG_FORMAT"

/-- The name of a format. -/
def name : LogFormat → String
  | .json => "json"
  | .pretty => "pretty"

/-- Read a format. Any text that names none means the format for machines. -/
def read (raw : String) : LogFormat :=
  if Setting.plainWord raw ∈ ["pretty", "text"] then .pretty else .json

/-- The format that an environment asks for. -/
def load (env : Environment) : LogFormat := ((env.value? key).map read).getD .json

end LogFormat

end ShopValidation
