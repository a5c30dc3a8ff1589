import ShopValidation.Proofs.Json.Numeral
import ShopValidation.Text.IntegerLiteral

/-!
# The value of an integer literal

A literal is digits, alone or after a sign. It is read as the integer that the digits denote, exactly
when that integer lies within the bounds. The digits are read into the bounds one by one, and nothing
is lost by that: more digits lead further away from zero, so once the bounds are left they stay left.
-/

namespace ShopValidation

namespace Json

/-- More digits at the end denote a number that is at least as large. -/
theorem decimalValue_le_append (front back : List Char) :
    decimalValue front ≤ decimalValue (front ++ back) := by
  induction back using List.reverseRecOn with
  | nil => rw [List.append_nil]
  | append_singleton back c ih =>
    rw [← List.append_assoc, decimalValue_concat]
    omega

/-- Digits denote a number of one digit, other than zero, exactly when they are that digit after any
number of zeros. -/
theorem decimalValue_eq_iff_of_lt_ten {digits : List Char}
    (hdigits : ∀ c ∈ digits, c.isDigit = true) {d : Nat} (hpos : 0 < d) (hlt : d < 10) :
    decimalValue digits = d ↔ ∃ zeros, digits = List.replicate zeros '0' ++ [d.digitChar] := by
  rw [← Nat.toDigits_of_lt_base hlt]
  by_cases hsome : digits = []
  · rw [hsome]
    exact iff_of_false (Nat.ne_of_lt hpos) (by simp)
  · exact decimalValue_eq_iff hsome hdigits

end Json

namespace Text

open Json (decimalValue decimalValue_concat decimalValue_le_append)

/-- Whether an integer lies within bounds. -/
def Bounds.Contains (bounds : Bounds) (n : Int) : Prop := bounds.lower ≤ n ∧ n ≤ bounds.upper

instance (bounds : Bounds) (n : Int) : Decidable (bounds.Contains n) :=
  inferInstanceAs (Decidable (_ ∧ _))

/-- The integer that digits denote on one side of zero. -/
def signedValue (negative : Bool) (digits : List Char) : Int :=
  if negative then -(decimalValue digits : Int) else decimalValue digits

/-- Whether a text is one or more digits. -/
def IsNumeral (text : List Char) : Prop := text ≠ [] ∧ ∀ c ∈ text, c.isDigit = true

/-- Whether a text is some digits, alone or after a sign. -/
inductive SignedDigits : (text : List Char) → (negative : Bool) → (digits : List Char) → Prop
  | unsigned (digits : List Char) : SignedDigits digits false digits
  | plus (digits : List Char) : SignedDigits ('+' :: digits) false digits
  | minus (digits : List Char) : SignedDigits ('-' :: digits) true digits

variable {bounds : Bounds} {negative : Bool} {text digits : List Char} {n : Int}

/-- One more digit leads away from zero. -/
theorem signedValue_concat (negative : Bool) (digits : List Char) (c : Char) :
    signedValue negative (digits ++ [c]) =
      if negative then signedValue negative digits * 10 - digitValue c
      else signedValue negative digits * 10 + digitValue c := by
  unfold signedValue
  rw [decimalValue_concat]
  split <;> push_cast <;> omega

/-- Where the first digits leave the bounds, all of them do. -/
theorem Bounds.Contains.of_append (hzero : bounds.Contains 0) {front back : List Char}
    (h : bounds.Contains (signedValue negative (front ++ back))) :
    bounds.Contains (signedValue negative front) := by
  have hle := decimalValue_le_append front back
  cases negative <;> simp only [Bounds.Contains, signedValue] at * <;> grind

/-- A digit that leads out of the bounds is not read. -/
theorem readDigits_cons_of_not_contains {before : List Char} {c : Char} (hdigit : c.isDigit = true)
    (h : ¬bounds.Contains (signedValue negative (before ++ [c]))) :
    ∃ error, readDigits bounds negative (signedValue negative before) (c :: text) = .error error := by
  rw [readDigits, if_pos hdigit, ← signedValue_concat]
  by_cases hupper : bounds.upper < signedValue negative (before ++ [c])
  · exact ⟨.tooLarge, if_pos hupper⟩
  · have hlower : signedValue negative (before ++ [c]) < bounds.lower := by
      unfold Bounds.Contains at h
      omega
    exact ⟨.tooSmall, by rw [if_neg hupper, if_pos hlower]⟩

/-- Digits are read on from a value within the bounds exactly when all of them together denote one. -/
theorem readDigits_eq_ok_iff (hzero : bounds.Contains 0) {before : List Char}
    (hbefore : bounds.Contains (signedValue negative before)) :
    readDigits bounds negative (signedValue negative before) text = .ok n ↔
      (∀ c ∈ text, c.isDigit = true) ∧ n = signedValue negative (before ++ text) ∧
        bounds.Contains n := by
  induction text generalizing before with
  | nil =>
    rw [readDigits, List.append_nil]
    constructor
    · rintro ⟨⟩
      exact ⟨by simp, rfl, hbefore⟩
    · rintro ⟨-, rfl, -⟩
      rfl
  | cons c rest ih =>
    have hsplit : before ++ c :: rest = before ++ [c] ++ rest := by simp
    by_cases hdigit : c.isDigit = true
    · by_cases hnext : bounds.Contains (signedValue negative (before ++ [c]))
      · rw [readDigits, if_pos hdigit, ← signedValue_concat, if_neg (Int.not_lt.mpr hnext.2),
          if_neg (Int.not_lt.mpr hnext.1), ih hnext, hsplit]
        simp [hdigit]
      · have hrefused : ∃ error,
            readDigits bounds negative (signedValue negative before) (c :: rest) = .error error :=
          readDigits_cons_of_not_contains hdigit hnext
        obtain ⟨error, herror⟩ := hrefused
        rw [herror, hsplit]
        constructor
        · rintro ⟨⟩
        · rintro ⟨-, rfl, hwithin⟩
          exact absurd (.of_append hzero hwithin) hnext
    · rw [readDigits, if_neg hdigit]
      simp [hdigit]

/-- Digits are read as the integer that they denote, if it is within the bounds. -/
theorem readDigits_zero_eq_ok_iff (hzero : bounds.Contains 0) :
    readDigits bounds negative 0 text = .ok n ↔
      (∀ c ∈ text, c.isDigit = true) ∧ n = signedValue negative text ∧ bounds.Contains n := by
  have hnone : signedValue negative [] = 0 := by cases negative <;> rfl
  rw [← hnone, readDigits_eq_ok_iff hzero (by rwa [hnone]), List.nil_append]

/-- A text that does not begin with a sign is read as digits. -/
theorem readInteger_cons_of_ne {c : Char} (hplus : c ≠ '+') (hminus : c ≠ '-') :
    readInteger bounds (c :: text) = readDigits bounds false 0 (c :: text) := by
  unfold readInteger
  split <;> simp_all

/-- A text is read as an integer exactly when it is one or more digits, alone or after a sign, and the
integer that they denote is within the bounds. A minus sign is one only where there are negative
integers within the bounds. -/
theorem readInteger_eq_ok_iff (hzero : bounds.Contains 0) :
    readInteger bounds text = .ok n ↔
      ∃ negative digits, SignedDigits text negative digits ∧ IsNumeral digits ∧
        (negative = true → bounds.lower < 0) ∧ n = signedValue negative digits ∧
        bounds.Contains n := by
  constructor
  · intro h
    unfold readInteger at h
    split at h
    case h_1 | h_2 | h_3 => cases h
    case h_4 _ rest hrest =>
      obtain ⟨hdigits, hn, hwithin⟩ := (readDigits_zero_eq_ok_iff hzero).mp h
      have hsome : rest ≠ [] := fun hnil => hrest (by rw [hnil])
      exact ⟨false, rest, .plus rest, ⟨hsome, hdigits⟩, by simp, hn, hwithin⟩
    case h_5 _ rest hrest =>
      split at h
      case isFalse => cases h
      case isTrue hnegative =>
      obtain ⟨hdigits, hn, hwithin⟩ := (readDigits_zero_eq_ok_iff hzero).mp h
      have hsome : rest ≠ [] := fun hnil => hrest (by rw [hnil])
      exact ⟨true, rest, .minus rest, ⟨hsome, hdigits⟩, fun _ => hnegative, hn, hwithin⟩
    case h_6 _ hsome _ _ _ _ =>
      obtain ⟨hdigits, hn, hwithin⟩ := (readDigits_zero_eq_ok_iff hzero).mp h
      exact ⟨false, text, .unsigned text, ⟨hsome, hdigits⟩, by simp, hn, hwithin⟩
  · rintro ⟨negative, digits, hform, ⟨hsome, hdigits⟩, hsign, hn, hwithin⟩
    have hread := (readDigits_zero_eq_ok_iff hzero).mpr ⟨hdigits, hn, hwithin⟩
    obtain ⟨c, rest, rfl⟩ := List.exists_cons_of_ne_nil hsome
    cases hform with
    | unsigned =>
      have hdigit : c.isDigit = true := hdigits c List.mem_cons_self
      have hplus : c ≠ '+' := by
        rintro rfl
        cases hdigit
      have hminus : c ≠ '-' := by
        rintro rfl
        cases hdigit
      rw [readInteger_cons_of_ne hplus hminus]
      exact hread
    | plus => exact hread
    | minus => exact (if_pos (hsign rfl)).trans hread

end Text

end ShopValidation
