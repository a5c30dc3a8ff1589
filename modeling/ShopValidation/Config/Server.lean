import ShopValidation.Config.Validation

/-!
# Configuration of the server

The database, the number of connections to it, and the configuration of shop validation.
-/

namespace ShopValidation

/-- How the server runs. -/
structure ServerConfig where
  databaseUrl : String
  maxConnections : Nat
  validation : ValidationConfig

/-- Why a server configuration was refused. -/
inductive ServerConfigError where
  | noDatabase
  | badConnections (raw : String) (cause : Text.IntegerError)
  | validation (cause : ConfigError)
deriving DecidableEq, Repr

namespace ServerConfig

def databaseKey : String := "DATABASE_URL"
def connectionsKey : String := "SHOPGEO_DB_MAX_CONNECTIONS"

/-- The number of connections where none is set. -/
def defaultConnections : Nat := 5

/-- Read the number of connections. A blank text is no number. -/
def readConnections (env : Environment) : Except ServerConfigError Nat :=
  match env.value? connectionsKey with
  | none => .ok defaultConnections
  | some raw =>
    match Text.readInteger .unsigned32 (Text.trim raw.toList) with
    | .ok n => .ok n.toNat
    | .error cause => .error (.badConnections raw cause)

/-- Read the configuration. -/
def load (env : Environment) : Except ServerConfigError ServerConfig :=
  match env.value? databaseKey with
  | none => .error .noDatabase
  | some url => do
    let connections ← readConnections env
    let validation ← (ValidationConfig.load env).mapError .validation
    return ⟨url, connections, validation⟩

end ServerConfig

/-- The wording of a server configuration error. -/
def ServerConfigError.message : ServerConfigError → String
  | .noDatabase => ServerConfig.databaseKey ++ " must be set: environment variable not found"
  | .badConnections raw cause =>
    ServerConfig.connectionsKey ++ ": invalid value " ++ Text.quoted raw ++ ": " ++ cause.message
  | .validation cause => cause.message

end ShopValidation
