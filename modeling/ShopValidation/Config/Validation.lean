import ShopValidation.Config.Setting

/-!
# Configuration of shop validation

Six settings, each read from a name of its own and each with a default. They are read in a fixed
order, and the first that is refused ends the reading.
-/

namespace ShopValidation

/-- A setting that was refused, and the name it stands under. -/
structure ConfigError where
  key : String
  refusal : Refusal
deriving DecidableEq, Repr

/-- The wording of a configuration error. -/
def ConfigError.message (error : ConfigError) : String :=
  error.key ++ ": invalid value " ++ Text.quoted error.refusal.value ++ ": "
    ++ error.refusal.fault.message

/-- The delays of the worker where none are set: one, two, four and ten minutes. -/
def defaultDelays : List Duration :=
  [.ofSeconds 60, .ofSeconds 120, .ofSeconds 240, .ofSeconds 600]

/-- How shops are validated. A maximal age is in seconds. -/
structure ValidationConfig where
  batchMax : Nat := 20
  delays : List Duration := defaultDelays
  maxAge : Option Int := none
  sourceUrl : String := "https://lz4.overpass-api.de/api/interpreter"
  testing : Bool := false
  ensureSchema : Bool := false
deriving DecidableEq

namespace ValidationConfig

def sourceUrlKey : String := "SHOPGEO_OVERPASS_URL"
def batchMaxKey : String := "SHOPGEO_VALIDATION_BATCH_MAX"
def delaysKey : String := "SHOPGEO_VALIDATION_BACKOFF_SECS"
def maxAgeKey : String := "SHOPGEO_REVALIDATION_MAX_AGE_DAYS"
def testingKey : String := "SHOPGEO_TESTING"
def ensureSchemaKey : String := "SHOPGEO_ENSURE_SCHEMA"

/-- The longest maximal age in days. In milliseconds it still fits a signed word of 64 bits. -/
def longestAgeDays : Int := 9223372036854775807 / 86400000

/-- Read the largest size of a batch. -/
def readBatchMax (raw : String) : Except Refusal Nat :=
  (Setting.readPositive .unsigned64 raw).map Int.toNat

/-- Read a maximal age, given in days. -/
def readMaxAge (raw : String) : Except Refusal (Option Int) := do
  let days ← Setting.readPositive .signed64 raw
  if longestAgeDays < days then throw ⟨raw, .tooLong⟩
  return some (days * 86400)

/-- Read one setting, or take its default where none is set. -/
def setting {α : Type} (env : Environment) (key : String) (fallback : α)
    (read : String → Except Refusal α) : Except ConfigError α :=
  match env.nonBlank? key with
  | none => .ok fallback
  | some raw => (read raw).mapError (ConfigError.mk key)

/-- Read the configuration. -/
def load (env : Environment) : Except ConfigError ValidationConfig := do
  let standard : ValidationConfig := {}
  let sourceUrl ← setting env sourceUrlKey standard.sourceUrl fun raw => .ok (Text.trimmed raw)
  let batchMax ← setting env batchMaxKey standard.batchMax readBatchMax
  let delays ← setting env delaysKey standard.delays Setting.readDelays
  let maxAge ← setting env maxAgeKey standard.maxAge readMaxAge
  let testing ← setting env testingKey standard.testing Setting.readSwitch
  let ensureSchema ← setting env ensureSchemaKey standard.ensureSchema Setting.readSwitch
  return ⟨batchMax, delays, maxAge, sourceUrl, testing, ensureSchema⟩

/-- The configuration with another batch size. -/
def withBatchMax (config : ValidationConfig) (size : Nat) : ValidationConfig :=
  { config with batchMax := size }

/-- The configuration with other delays. -/
def withDelays (config : ValidationConfig) (delays : List Duration) : ValidationConfig :=
  { config with delays := delays }

/-- The configuration with a maximal age in seconds. -/
def withMaxAge (config : ValidationConfig) (seconds : Int) : ValidationConfig :=
  { config with maxAge := some seconds }

end ValidationConfig

end ShopValidation
