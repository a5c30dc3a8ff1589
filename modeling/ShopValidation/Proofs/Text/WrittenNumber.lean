import ShopValidation.Proofs.Text.IntegerValue
import ShopValidation.Proofs.Text.Trimming

/-!
# Numbers as they are written

A number is written in decimal after any number of zeros, alone or after a plus sign. A reader with a
limit takes every such text of a number up to the limit, and no other text. What it refuses, it refuses
for what is met first: digits that lead beyond the limit, or a character that is no digit. A number has no
blanks, so trimming leaves a number of exactly the texts that are one with blanks around it.
-/

namespace ShopValidation

namespace Text

open Json (decimalValue decimalValue_concat decimalValue_eq_iff decimalValue_le_append
  decimalValue_toDigits decimalValue_zeros_append)

/-- Whether a text is a number in decimal: its digits after any number of zeros, alone or after a plus
sign. -/
inductive Writes (n : Nat) : List Char → Prop
  | unsigned (zeros : Nat) : Writes n (List.replicate zeros '0' ++ Nat.toDigits 10 n)
  | plus (zeros : Nat) : Writes n ('+' :: (List.replicate zeros '0' ++ Nat.toDigits 10 n))

/-- A text without its plus sign, if it begins with one. -/
def withoutPlus : List Char → List Char
  | '+' :: rest => rest
  | text => text

/-- Why a text is no number up to a limit: it is empty, its digits lead beyond the limit, whatever
stands after them, or they do not and it is no number at all. -/
def Refused (limit : Nat) (text : List Char) (cause : IntegerError) : Prop :=
  text = [] ∧ cause = .empty ∨
  text ≠ [] ∧ limit < decimalValue ((withoutPlus text).takeWhile Char.isDigit) ∧
    cause = .tooLarge ∨
  text ≠ [] ∧ decimalValue ((withoutPlus text).takeWhile Char.isDigit) ≤ limit ∧
    (∀ n, ¬Writes n text) ∧ cause = .invalidDigit

variable {bounds : Bounds} {limit n : Nat} {text digits : List Char} {cause : IntegerError}

/-- Zeros and the decimal digits of a number are a numeral of its value. -/
theorem isNumeral_zeros_append (zeros n : Nat) :
    IsNumeral (List.replicate zeros '0' ++ Nat.toDigits 10 n) ∧
      decimalValue (List.replicate zeros '0' ++ Nat.toDigits 10 n) = n := by
  refine ⟨⟨by simp, fun c hc => ?_⟩, ?_⟩
  · rcases List.mem_append.mp hc with hzero | hdigit
    · rw [List.eq_of_mem_replicate hzero]
      rfl
    · exact Nat.isDigit_of_mem_toDigits (by decide) (by decide) hdigit
  · rw [decimalValue_zeros_append, decimalValue_toDigits]

/-- A numeral does not begin with a plus sign. -/
theorem withoutPlus_of_isNumeral (h : IsNumeral text) : withoutPlus text = text := by
  unfold withoutPlus
  split
  · cases h.2 '+' List.mem_cons_self
  · rfl

/-- A text writes a number exactly when it is digits that denote it, but for a plus sign. -/
theorem writes_iff :
    Writes n text ↔ IsNumeral (withoutPlus text) ∧ decimalValue (withoutPlus text) = n := by
  constructor
  · intro h
    cases h with
    | unsigned zeros =>
      have hnumeral := isNumeral_zeros_append zeros n
      rwa [withoutPlus_of_isNumeral hnumeral.1]
    | plus zeros => exact isNumeral_zeros_append zeros n
  · rintro ⟨⟨hsome, hdigits⟩, hvalue⟩
    obtain ⟨zeros, hzeros⟩ := (decimalValue_eq_iff hsome hdigits).mp hvalue
    unfold withoutPlus at hzeros
    split at hzeros
    · rw [hzeros]
      exact .plus zeros
    · rw [hzeros]
      exact .unsigned zeros

/-- No number is written with nothing. -/
theorem Writes.ne_nil (h : Writes n text) : text ≠ [] := by
  rintro rfl
  exact (writes_iff.mp h).1.1 rfl

/-- The characters of a written number are digits and the plus sign. -/
theorem Writes.mem (h : Writes n text) {c : Char} (hc : c ∈ text) : c = '+' ∨ c.isDigit = true := by
  obtain ⟨⟨-, hdigits⟩, -⟩ := writes_iff.mp h
  unfold withoutPlus at hdigits
  split at hdigits
  · exact (List.mem_cons.mp hc).imp_right (hdigits c)
  · exact .inr (hdigits c hc)

/-- A positive number, or any number where no integer within the bounds is negative, is read from the
texts that write it, if it is within the bounds. -/
theorem readInteger_natCast_eq_ok_iff (hzero : bounds.Contains 0) (hsign : 0 < n ∨ bounds.lower = 0) :
    readInteger bounds text = .ok (n : Int) ↔ Writes n text ∧ (n : Int) ≤ bounds.upper := by
  rw [readInteger_eq_ok_iff hzero, writes_iff]
  constructor
  · rintro ⟨negative, digits, hform, hnumeral, hnegative, hvalue, -, hupper⟩
    cases hform with
    | unsigned =>
      rw [withoutPlus_of_isNumeral hnumeral]
      exact ⟨⟨hnumeral, (Int.ofNat.inj hvalue).symm⟩, hupper⟩
    | plus => exact ⟨⟨hnumeral, (Int.ofNat.inj hvalue).symm⟩, hupper⟩
    | minus =>
      -- Below zero there are no positive numbers, and sometimes no numbers at all.
      have hlower := hnegative rfl
      simp only [signedValue, if_true] at hvalue
      omega
  · rintro ⟨⟨hnumeral, hvalue⟩, hupper⟩
    have hlower : bounds.lower ≤ (n : Int) := Int.le_trans hzero.1 (Int.natCast_nonneg n)
    refine ⟨false, withoutPlus text, ?_, hnumeral, by simp, ?_, hlower, hupper⟩
    · unfold withoutPlus
      split
      · exact .plus _
      · exact .unsigned _
    · rw [← hvalue]
      rfl

/-- A number of 64 bits is read from the texts that write it, and nothing else is read. -/
theorem readInteger_unsigned64_eq_ok_iff {m : Int} : readInteger .unsigned64 text = .ok m ↔
    ∃ n : Nat, Writes n text ∧ n ≤ 18446744073709551615 ∧ m = n := by
  have hread (n : Nat) : readInteger .unsigned64 text = .ok (n : Int) ↔
      Writes n text ∧ (n : Int) ≤ 18446744073709551615 :=
    readInteger_natCast_eq_ok_iff (by decide) (.inr rfl)
  constructor
  · intro h
    obtain ⟨_, _, _, _, _, _, hlower, -⟩ := (readInteger_eq_ok_iff (by decide)).mp h
    lift m to ℕ using hlower
    obtain ⟨hwrites, hupper⟩ := (hread m).mp h
    exact ⟨m, hwrites, Int.ofNat_le.mp hupper, rfl⟩
  · rintro ⟨n, hwrites, hupper, rfl⟩
    exact (hread n).mpr ⟨hwrites, Int.ofNat_le.mpr hupper⟩

/-- Digits are read up to a limit until they lead beyond it or something else follows. -/
theorem readDigits_upTo (before : List Char) (hbefore : decimalValue before ≤ limit) :
    readDigits ⟨0, limit⟩ false (decimalValue before) text =
      if limit < decimalValue (before ++ text.takeWhile Char.isDigit) then .error .tooLarge
      else if text.all Char.isDigit then .ok (decimalValue (before ++ text))
      else .error .invalidDigit := by
  induction text generalizing before with
  | nil => simp [readDigits, Nat.not_lt.mpr hbefore]
  | cons c rest ih =>
    by_cases hdigit : c.isDigit = true
    · have hnext : (decimalValue before : Int) * 10 + digitValue c =
          (decimalValue (before ++ [c]) : Nat) := by
        rw [decimalValue_concat]
        omega
      have hmore := decimalValue_le_append (before ++ [c]) (rest.takeWhile Char.isDigit)
      have hrest := ih (before ++ [c])
      rw [List.append_assoc, List.singleton_append] at hmore hrest
      rw [readDigits, if_pos hdigit, List.takeWhile_cons_of_pos hdigit]
      simp only [Bool.false_eq_true, if_false, hnext]
      by_cases hover : limit < decimalValue (before ++ [c])
      · rw [if_pos (Int.ofNat_lt.mpr hover), if_pos (Nat.lt_of_lt_of_le hover hmore)]
      · rw [if_neg (mt Int.ofNat_lt.mp hover), if_neg (Int.not_lt.mpr (Int.natCast_nonneg _)),
          hrest (Nat.not_lt.mp hover)]
        simp [hdigit]
    · rw [readDigits, if_neg hdigit, List.takeWhile_cons_of_neg hdigit, List.append_nil,
        if_neg (Nat.not_lt.mpr hbefore), List.all_cons, Bool.eq_false_iff.mpr hdigit]
      rfl

/-- A text that is not empty is read as digits after its plus sign. There have to be some. -/
theorem readInteger_upTo (hsome : text ≠ []) :
    readInteger ⟨0, limit⟩ text =
      if withoutPlus text = [] then .error .invalidDigit
      else readDigits ⟨0, limit⟩ false 0 (withoutPlus text) := by
  unfold readInteger
  split
  case h_1 => exact absurd rfl hsome
  case h_2 | h_3 => rfl
  case h_4 rest hrest =>
    have hne : withoutPlus ('+' :: rest) ≠ [] := fun hnil => hrest (by rw [show rest = [] from hnil])
    rw [if_neg hne]
    rfl
  case h_5 rest hrest => simp [withoutPlus, readDigits]
  case h_6 _ _ _ _ hplus _ =>
    have hsame : withoutPlus text = text := by
      unfold withoutPlus
      split
      · exact (hplus _ rfl).elim
      · rfl
    rw [hsame, if_neg hsome]

/-- A reader with a limit refuses a text for what is met first. -/
theorem readInteger_eq_error_iff :
    readInteger ⟨0, limit⟩ text = .error cause ↔ Refused limit text cause := by
  by_cases hnil : text = []
  · subst hnil
    simp [Refused, readInteger, eq_comm]
  · have hwrites : (∀ n, ¬Writes n text) ↔ ¬IsNumeral (withoutPlus text) := by simp [writes_iff]
    have hread : readDigits ⟨0, limit⟩ false 0 (withoutPlus text) = _ :=
      readDigits_upTo [] (Nat.zero_le limit)
    have hcause (met : IntegerError) :
        (Except.error met : Except IntegerError Int) = .error cause ↔ cause = met := by
      rw [Except.error.injEq, eq_comm]
    rw [readInteger_upTo hnil, hread, Refused, hwrites, List.nil_append]
    by_cases hnone : withoutPlus text = []
    · have hnumeral : ¬IsNumeral (withoutPlus text) := fun h => h.1 hnone
      have hvalue : decimalValue ((withoutPlus text).takeWhile Char.isDigit) = 0 := by
        rw [hnone]
        rfl
      rw [if_pos hnone, hcause]
      simp [hnil, hnumeral, hvalue]
    · rw [if_neg hnone]
      by_cases hover : limit < decimalValue ((withoutPlus text).takeWhile Char.isDigit)
      · rw [if_pos hover, hcause]
        simp [hnil, hover, Nat.not_le.mpr hover]
      · rw [if_neg hover]
        by_cases hdigits : (withoutPlus text).all Char.isDigit = true
        · have hnumeral : IsNumeral (withoutPlus text) := ⟨hnone, List.all_eq_true.mp hdigits⟩
          rw [if_pos hdigits]
          simp [hnil, hover, hnumeral]
        · have hnumeral : ¬IsNumeral (withoutPlus text) := fun h =>
            hdigits (List.all_eq_true.mpr h.2)
          rw [if_neg hdigits, hcause]
          simp [hnil, hover, hnumeral, Nat.not_lt.mp hover]

/-- A written number has no blanks. -/
theorem Writes.isBlank_eq_false (h : Writes n text) {c : Char} (hc : c ∈ text) : isBlank c = false := by
  rcases h.mem hc with rfl | hdigit
  · decide
  · have hrange : 48 ≤ c.toNat ∧ c.toNat ≤ 57 := Char.isDigit_iff_toNat.mp hdigit
    simp only [isBlank, blankRanges, List.any_cons, List.any_nil, Bool.or_false, Bool.or_eq_false_iff,
      Bool.and_eq_false_iff, decide_eq_false_iff_not]
    omega

/-- What trimming leaves of a text writes a number when the text does, with any blanks around it. -/
theorem writes_trim_iff : Writes n (trim text) ↔ ∃ number, Writes n number ∧ Pads number text := by
  constructor
  · intro h
    exact ⟨trim text, h, pads_trim text⟩
  · rintro ⟨number, hwrites, hpads⟩
    have htrimmed : Trimmed number := trimmed_of_forall fun c hc => hwrites.isBlank_eq_false hc
    rwa [trim_eq_iff.mpr ⟨htrimmed, hpads⟩]

end Text

end ShopValidation
