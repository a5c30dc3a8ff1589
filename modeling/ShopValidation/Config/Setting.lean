import ShopValidation.Config.Environment
import ShopValidation.Text.IntegerLiteral
import ShopValidation.Text.Quoted
import ShopValidation.Time.Duration

/-!
# Reading single settings

One reader for each form of setting: an integer in an interval, a switch, a list of delays. A reader
takes the raw text and refuses it with the value at fault and the cause.
-/

namespace ShopValidation

/-- What is wrong with a setting. -/
inductive SettingFault where
  | notInteger (cause : Text.IntegerError)
  | notPositive
  | tooLong
  | emptyEntry
  | notSwitch
deriving DecidableEq, Repr

/-- The wording of a fault. -/
def SettingFault.message : SettingFault → String
  | .notInteger cause => cause.message
  | .notPositive => "must be positive"
  | .tooLong => "too large"
  | .emptyEntry => "empty entry"
  | .notSwitch => "expected a boolean"

/-- A refused value and what is wrong with it. -/
structure Refusal where
  value : String
  fault : SettingFault
deriving DecidableEq, Repr

namespace Setting

/-- Read an integer, ignoring blanks around it. -/
def readNumber (bounds : Text.Bounds) (raw : String) : Except Refusal Int :=
  (Text.readInteger bounds (Text.trim raw.toList)).mapError fun cause => ⟨raw, .notInteger cause⟩

/-- Read an integer that has to be above zero. -/
def readPositive (bounds : Text.Bounds) (raw : String) : Except Refusal Int := do
  let n ← readNumber bounds raw
  if n ≤ 0 then throw ⟨raw, .notPositive⟩
  return n

/-- The words for on and off. -/
def switchWords : List (String × Bool) :=
  [("1", true), ("true", true), ("yes", true), ("on", true),
   ("0", false), ("false", false), ("no", false), ("off", false)]

/-- A text without the blanks around it, its capital letters of the Latin alphabet made small. -/
def plainWord (raw : String) : String :=
  String.ofList ((Text.trim raw.toList).map Char.toLower)

/-- Read a switch. -/
def readSwitch (raw : String) : Except Refusal Bool :=
  match switchWords.lookup (plainWord raw) with
  | some on => .ok on
  | none => .error ⟨raw, .notSwitch⟩

/-- The parts of a text between its commas. There is one more part than there are commas. -/
def splitCommas : List Char → List (List Char)
  | [] => [[]]
  | c :: rest =>
    match splitCommas rest with
    | [] => [[c]]
    | part :: parts => if c = ',' then [] :: part :: parts else (c :: part) :: parts

/-- Read one entry of a list of delays, a whole number of seconds. A blank entry is a fault of the
whole list, any other fault one of the entry. -/
def readDelay (raw : String) (entry : List Char) : Except Refusal Duration :=
  let entry := Text.trim entry
  if entry.isEmpty then .error ⟨raw, .emptyEntry⟩
  else (readNumber .unsigned64 (String.ofList entry)).map fun n => Duration.ofSeconds n.toNat

/-- Read a list of delays, from left to right. -/
def readDelays (raw : String) : Except Refusal (List Duration) :=
  (splitCommas raw.toList).mapM (readDelay raw)

theorem splitCommas_ne_nil (text : List Char) : splitCommas text ≠ [] := by
  cases text with
  | nil => simp [splitCommas]
  | cons c rest =>
    unfold splitCommas
    split
    · simp
    · split <;> simp

example : splitCommas ['1', ',', ',', '2'] = [['1'], [], ['2']] := by decide

end Setting

end ShopValidation
