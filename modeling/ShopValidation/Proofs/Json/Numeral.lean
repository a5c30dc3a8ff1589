import Mathlib.Data.List.Induction
import Mathlib.Data.Nat.Digits.Defs
import ShopValidation.Json.Number

/-!
# Decimal numerals

A number that is written in digits and read back is the same number. Digits that are read and written
again are the same digits exactly when they have no leading zero. So the digits of a number are what it
is written with, after any number of zeros.
-/

namespace ShopValidation.Json

/-- Whether digits begin with another digit than zero, or are the digit zero alone. -/
def NoLeadingZero (digits : List Char) : Prop := digits = ['0'] ∨ digits.head? ≠ some '0'

instance (digits : List Char) : Decidable (NoLeadingZero digits) :=
  inferInstanceAs (Decidable (_ ∨ _))

/-- A digit is the one that its value is written with. -/
theorem digitChar_digitValue {c : Char} (h : c.isDigit = true) :
    Text.digitValue c < 10 ∧ Nat.digitChar (Text.digitValue c) = c := by
  have hrange : 48 ≤ c.toNat ∧ c.toNat ≤ 57 := Char.isDigit_iff_toNat.mp h
  have hlt : Text.digitValue c < 10 := by
    unfold Text.digitValue
    omega
  refine ⟨hlt, Char.toNat_inj.mp ?_⟩
  rw [Nat.toNat_digitChar_of_lt_ten hlt, Text.digitValue]
  omega

/-- The value of digits with one more at the end. -/
theorem decimalValue_concat (digits : List Char) (c : Char) :
    decimalValue (digits ++ [c]) = 10 * decimalValue digits + Text.digitValue c := by
  simp [decimalValue]

/-- Zeros before digits do not change their value. -/
theorem decimalValue_zeros_append (zeros : Nat) (digits : List Char) :
    decimalValue (List.replicate zeros '0' ++ digits) = decimalValue digits := by
  induction zeros with
  | zero => rfl
  | succ zeros ih => exact ih

/-- The digits that a number is written with denote it. -/
theorem decimalValue_toDigits (n : Nat) : decimalValue (Nat.toDigits 10 n) = n := by
  induction n using Nat.strongRecOn with
  | ind n ih =>
    rw [Nat.toDigits_eq_if (by decide)]
    split
    case isTrue hlt =>
      have hvalue := Nat.toNat_digitChar_of_lt_ten hlt
      simp [decimalValue, Text.digitValue, hvalue]
    case isFalse hge =>
      have hvalue := Nat.toNat_digitChar_of_lt_ten (Nat.mod_lt n (by decide : 0 < 10))
      rw [decimalValue_concat, ih (n / 10) (by omega), Text.digitValue, hvalue]
      omega

/-- One more digit at the end does not change the first. -/
theorem head?_concat {digits : List Char} (hsome : digits ≠ []) (c : Char) :
    (digits ++ [c]).head? = digits.head? := by
  cases digits with
  | nil => exact absurd rfl hsome
  | cons first rest => rfl

/-- The digits of a positive number do not begin with zero. -/
theorem head?_toDigits_ne_zero {n : Nat} (hpos : 0 < n) :
    (Nat.toDigits 10 n).head? ≠ some '0' := by
  induction n using Nat.strongRecOn with
  | ind n ih =>
    rw [Nat.toDigits_eq_if (by decide)]
    split
    · have hdigit : n.digitChar ≠ '0' := mt Nat.digitChar_eq_zero.mp (Nat.ne_of_gt hpos)
      simpa using hdigit
    · have hhead := ih (n / 10) (by omega) (by omega)
      rwa [head?_concat Nat.toDigits_ne_nil]

/-- Numbers are written without leading zeros. -/
theorem noLeadingZero_toDigits (n : Nat) : NoLeadingZero (Nat.toDigits 10 n) := by
  rcases Nat.eq_zero_or_pos n with rfl | hpos
  · exact .inl (Nat.toDigits_zero 10)
  · exact .inr (head?_toDigits_ne_zero hpos)

/-- Digits without a leading zero are what their value is written with. -/
theorem toDigits_decimalValue {digits : List Char} (hsome : digits ≠ [])
    (hdigits : ∀ c ∈ digits, c.isDigit = true) (hzero : NoLeadingZero digits) :
    Nat.toDigits 10 (decimalValue digits) = digits := by
  induction digits using List.reverseRecOn with
  | nil => exact absurd rfl hsome
  | append_singleton digits c ih =>
    obtain ⟨hlt, hchar⟩ := digitChar_digitValue (hdigits c (by simp))
    rw [decimalValue_concat]
    by_cases hnil : digits = []
    · subst hnil
      rw [show 10 * decimalValue [] + Text.digitValue c = Text.digitValue c from Nat.zero_add _,
        Nat.toDigits_of_lt_base hlt, hchar]
      rfl
    · have hhead : digits.head? ≠ some '0' := by
        rcases hzero with hsingle | hhead
        · have hlength := congrArg List.length hsingle
          simp [hnil] at hlength
        · rwa [head?_concat hnil] at hhead
      have hfront := ih hnil (fun c hc => hdigits c (List.mem_append_left _ hc)) (.inr hhead)
      -- The digits before the last are not all zero, so their value does not vanish.
      have hpos : 0 < decimalValue digits := by
        rcases Nat.eq_zero_or_pos (decimalValue digits) with hvalue | hpos
        · rw [hvalue, Nat.toDigits_zero] at hfront
          exact absurd (congrArg List.head? hfront).symm hhead
        · exact hpos
      rw [← Nat.toDigits_append_toDigits (by decide) hpos hlt, hfront,
        Nat.toDigits_of_lt_base hlt, hchar]

/-- Digits are what their value is written with exactly when they have no leading zero. -/
theorem toDigits_decimalValue_iff {digits : List Char} (hsome : digits ≠ [])
    (hdigits : ∀ c ∈ digits, c.isDigit = true) :
    Nat.toDigits 10 (decimalValue digits) = digits ↔ NoLeadingZero digits := by
  constructor
  · intro h
    rw [← h]
    exact noLeadingZero_toDigits _
  · exact toDigits_decimalValue hsome hdigits

/-- Digits denote a number exactly when they are what it is written with, after any number of zeros. -/
theorem decimalValue_eq_iff {digits : List Char} (hsome : digits ≠ [])
    (hdigits : ∀ c ∈ digits, c.isDigit = true) {n : Nat} :
    decimalValue digits = n ↔ ∃ zeros, digits = List.replicate zeros '0' ++ Nat.toDigits 10 n := by
  constructor
  · rintro rfl
    induction digits with
    | nil => exact absurd rfl hsome
    | cons c rest ih =>
      by_cases hleading : c = '0' ∧ rest ≠ []
      · obtain ⟨rfl, hrest⟩ := hleading
        obtain ⟨zeros, hzeros⟩ := ih hrest fun c hc => hdigits c (List.mem_cons_of_mem _ hc)
        refine ⟨zeros + 1, ?_⟩
        rw [show decimalValue ('0' :: rest) = decimalValue rest from decimalValue_zeros_append 1 rest,
          List.replicate_succ, List.cons_append, ← hzeros]
      · have hzero : NoLeadingZero (c :: rest) := by
          by_cases hc : c = '0'
          · have hrest : rest = [] := by simpa [hc] using hleading
            exact .inl (by rw [hc, hrest])
          · exact .inr (by simpa using hc)
        exact ⟨0, (toDigits_decimalValue hsome hdigits hzero).symm⟩
  · rintro ⟨zeros, rfl⟩
    rw [decimalValue_zeros_append, decimalValue_toDigits]

end ShopValidation.Json
