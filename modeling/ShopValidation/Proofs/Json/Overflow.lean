import Mathlib
import ShopValidation.Proofs.Json.FloatValue

/-!
# Numbers that are too large

A product of two floating-point numbers is infinite where their leading bits alone lead beyond the
range. So no literal of an integer with more than three hundred and nine digits stands for a number:
the digits that are taken up and the power of ten that is left are too large together, however they
are rounded.
-/

namespace ShopValidation.Json

open Float.Model Float.Model.UnpackedFloat

/-- A number is finite and has fifty-three bits, with an exponent that is no smaller than a given one. -/
inductive Leads : UnpackedFloat → Int → Prop
  | finite {sign : Sign} {m : Nat} {e' e : Int} (hpos : 0 < m) (hm : 2 ^ 52 ≤ m) (he : e ≤ e') :
    Leads (.finite sign m e' hpos) e

instance (x : UnpackedFloat) (e : Int) : Decidable (Leads x e) :=
  match x with
  | .finite _ m e' hpos =>
    if h : 2 ^ 52 ≤ m ∧ e ≤ e' then .isTrue (.finite hpos h.1 h.2)
    else .isFalse fun | .finite _ hm he => h ⟨hm, he⟩
  | .zero _ | .infinity _ | .notANumber => .isFalse nofun

section Rounding

variable {m n : Nat} {e : Int} {sign : Sign} {accuracy : Accuracy}

/-- Shifting to the right divides the mantissa. -/
theorem shiftRight_mantissa (extended : ExtendedMantissa) (n : Nat) :
    (extended >>> n).mantissa = extended.mantissa / 2 ^ n := by
  induction n with
  | zero => exact (Nat.div_one _).symm
  | succ n ih =>
    have hone : (extended >>> (n + 1)).mantissa = (extended >>> n).mantissa / 2 := rfl
    rw [hone, ih, Nat.div_div_eq_div_mul, Nat.pow_succ]

/-- Rounding adds one to the mantissa, or nothing. -/
theorem roundedMantissa_bounds (extended : ExtendedMantissa) :
    extended.mantissa ≤ extended.roundedMantissa ∧
      extended.roundedMantissa ≤ extended.mantissa + 1 := by
  obtain ⟨m, round, sticky⟩ := extended
  cases round <;> cases sticky <;>
    simp only [ExtendedMantissa.roundedMantissa, ExtendedMantissa.accuracy,
      Accuracy.roundToNearestEven] <;> omega

/-- The leading fifty-three bits of a number. -/
theorem leading_bits (hm : 2 ^ 52 ≤ m) :
    2 ^ 52 ≤ m / 2 ^ (m.log2 - 52) ∧ m / 2 ^ (m.log2 - 52) < 2 ^ 53 := by
  have hpos : m ≠ 0 := by omega
  have hlog : 52 ≤ m.log2 := (Nat.le_log2 hpos).mpr hm
  have hlow : 2 ^ 52 * 2 ^ (m.log2 - 52) ≤ m := by
    rw [← Nat.pow_add, Nat.add_sub_cancel' hlog]
    exact Nat.log2_self_le hpos
  have hhigh : m < 2 ^ 53 * 2 ^ (m.log2 - 52) := by
    rw [← Nat.pow_add, show 53 + (m.log2 - 52) = m.log2 + 1 by omega]
    exact Nat.lt_log2_self
  exact ⟨(Nat.le_div_iff_mul_le (Nat.two_pow_pos _)).mpr hlow,
    (Nat.div_lt_iff_lt_mul (Nat.two_pow_pos _)).mpr hhigh⟩

/-- A number with fifty-three bits or more is shifted to its leading ones. -/
theorem shiftToTargetExponent_eq (hm : 2 ^ 52 ≤ m) (he : -1074 ≤ m.log2 - 52 + e) :
    (shiftToTargetExponent .binary64 m e accuracy).1.mantissa = m / 2 ^ (m.log2 - 52) ∧
      (shiftToTargetExponent .binary64 m e accuracy).2 = m.log2 - 52 + e := by
  have hlog : 52 ≤ m.log2 := (Nat.le_log2 (by omega)).mpr hm
  have htarget : Format.binary64.targetExponent (totalExponent m e) = m.log2 - 52 + e := by
    simp only [Format.targetExponent, totalExponent, Format.mantissaBits, Format.minExponent]
    omega
  have hshift : (Format.binary64.targetExponent (totalExponent m e) - e).toNat = m.log2 - 52 := by
    rw [htarget]
    omega
  simp only [shiftToTargetExponent, shiftToExponent, hshift, shiftRight_mantissa]
  refine ⟨?_, by omega⟩
  cases accuracy with
  | exact => rfl
  | inexact order => cases order <;> rfl

/-- A number with fifty-three bits or more is rounded to one with fifty-three bits, which is no
smaller than its leading bits. -/
theorem exists_roundWithAccuracy (hm : 2 ^ 52 ≤ m) (he : -1074 ≤ m.log2 - 52 + e) :
    ∃ m' e' hpos, roundWithAccuracy .binary64 sign m e .exact = .finite sign m' e' hpos ∧
      2 ^ 52 ≤ m' ∧ m' < 2 ^ 53 ∧ m.log2 - 52 + e ≤ e' ∧ e' ≤ m.log2 - 51 + e := by
  obtain ⟨hlow, hhigh⟩ := leading_bits hm
  obtain ⟨hmantissa, hexponent⟩ :
      (shiftToTargetExponent .binary64 m e .exact).1.mantissa = _ ∧ _ := shiftToTargetExponent_eq hm he
  rcases hfirst : shiftToTargetExponent .binary64 m e .exact with ⟨extended, e₁⟩
  simp only [hfirst] at hmantissa hexponent
  rw [← hmantissa] at hlow hhigh
  -- Rounding may lead to one bit more, and then the number is shifted once again.
  obtain ⟨hle, hge⟩ := roundedMantissa_bounds extended
  have hrounded : 2 ^ 52 ≤ extended.roundedMantissa := Nat.le_trans hlow hle
  have hlog : 52 ≤ extended.roundedMantissa.log2 ∧ extended.roundedMantissa.log2 ≤ 53 := by
    refine ⟨(Nat.le_log2 (by omega)).mpr hrounded, Nat.le_of_lt_succ ?_⟩
    exact (Nat.log2_lt (by omega)).mpr (by omega)
  have hrange : -1074 ≤ (extended.roundedMantissa.log2 : Int) - 52 + e₁ := by omega
  obtain ⟨hlow, hhigh⟩ := leading_bits hrounded
  obtain ⟨hmantissa', hexponent'⟩ :
      (shiftToTargetExponent .binary64 extended.roundedMantissa e₁ .exact).1.mantissa = _ ∧ _ :=
    shiftToTargetExponent_eq hrounded hrange
  rcases hsecond : shiftToTargetExponent .binary64 extended.roundedMantissa e₁ .exact with ⟨last, e₂⟩
  simp only [hsecond] at hmantissa' hexponent'
  rw [← hmantissa'] at hlow hhigh
  have hpos : 0 < last.mantissa := by omega
  refine ⟨last.mantissa, e₂, hpos, ?_, hlow, hhigh, by omega, by omega⟩
  simp only [roundWithAccuracy, hfirst, hsecond, dif_neg (Nat.ne_of_gt hpos)]

/-- A number of fifty-three bits with too large an exponent is packed as an infinity. -/
theorem isFinite_unpack_pack (hpos : 0 < m) (he : 972 ≤ e) :
    (UnpackedFloat.unpack .binary64
      (UnpackedFloat.pack .binary64 (.finite sign m e hpos))).isFinite = false := by
  have hlarge : 2 ^ Format.binary64.exponentBits ≤
      (e + Format.binary64.exponentBias + Format.binary64.mantissaBitsWithoutImplicit).toNat + 1 := by
    simp only [Format.exponentBias]
    omega
  rw [UnpackedFloat.pack, if_pos hlarge]
  cases sign <;> decide +kernel

/-- A number of fifty-three bits with an exponent in range is unpacked with that exponent. -/
theorem leads_unpack_pack (hlow : 2 ^ 52 ≤ m) (hhigh : m < 2 ^ 53) (hpos : 0 < m) (hmin : -1074 ≤ e)
    (hmax : e < 972) {e' : Int} (he : e' ≤ e) :
    Leads (UnpackedFloat.unpack .binary64
      (UnpackedFloat.pack .binary64 (.finite sign m e hpos))) e' := by
  have hne : m ≠ 0 := Nat.ne_of_gt hpos
  have hlog : m.log2 = 52 := (Nat.log2_eq_iff hne).mpr ⟨hlow, hhigh⟩
  -- The exponent is stored with a bias that makes it positive, and no infinity.
  obtain ⟨biased, hbiased, hbiasedPos, hbiasedMax⟩ :
      ∃ biased : Nat, (biased : Int) = e + 1075 ∧ 0 < biased ∧ biased < 2047 :=
    ⟨(e + 1075).toNat, by omega, by omega, by omega⟩
  have hstored : (e + Format.binary64.exponentBias + Format.binary64.mantissaBitsWithoutImplicit).toNat =
      biased := by
    simp only [Format.exponentBias]
    omega
  have hpack : UnpackedFloat.pack .binary64 (.finite sign m e hpos) =
      packComponents .binary64 sign (BitVec.ofNat 11 biased) (BitVec.ofNat 52 m) := by
    have hfinite : ¬2 ^ Format.binary64.exponentBits ≤ biased + 1 := by
      have hbits : 2 ^ Format.binary64.exponentBits = 2048 := rfl
      omega
    rw [← hstored] at hfinite
    rw [UnpackedFloat.pack, if_neg hfinite, hstored, if_pos (by rw [hlog]; rfl)]
  have hinfinite : BitVec.ofNat 11 biased ≠ -1#11 := by
    intro h
    have hvalue : biased % 2048 = 2047 := congrArg BitVec.toNat h
    omega
  have hsubnormal : BitVec.ofNat 11 biased ≠ 0#11 := by
    intro h
    have hvalue : biased % 2048 = 0 := congrArg BitVec.toNat h
    omega
  have hexponent : ((BitVec.ofNat 11 biased).toNat : Int) -
      (Format.binary64.exponentBias + (52 : Nat)) = e := by
    have hbias : Format.binary64.exponentBias = 1023 := rfl
    rw [BitVec.toNat_ofNat, hbias]
    omega
  have hmantissa : 2 ^ 52 ≤ (1#1 ++ BitVec.ofNat 52 m).toNat := by
    rw [BitVec.toNat_append, ← Nat.shiftLeft_add_eq_or_of_lt (BitVec.isLt _)]
    exact Nat.le_add_right _ _
  rw [hpack, UnpackedFloat.unpack]
  simp only [unpackMantissa_packComponents, unpackExponent_packComponents]
  rw [if_neg hinfinite, if_neg hsubnormal]
  simp only [hexponent]
  exact .finite _ hmantissa he

/-- A number of sixty-four bits is read as one with its leading fifty-three. -/
theorem leads_toFloat (hm : 2 ^ 53 ≤ m) (hbits : m < 2 ^ 64) :
    Leads m.toUInt64.toFloat.toModel.unpack (m.log2 - 52) := by
  have hne : m ≠ 0 := by omega
  have hlog : 53 ≤ m.log2 := (Nat.le_log2 hne).mpr hm
  have htop : m.log2 < 64 := (Nat.log2_lt hne).mpr hbits
  have htoNat : m.toUInt64.toNat = m := UInt64.toNat_ofNat_of_lt hbits
  have hpositive : compare (m : Int) 0 = .gt := Int.compare_eq_gt.mpr (by omega)
  -- It has bits enough, so that it is not shifted to the left before it is rounded.
  have htarget : ((0 : Int) - Format.binary64.targetExponent (totalExponent m 0)).toNat = 0 := by
    simp only [Format.targetExponent, totalExponent, Format.mantissaBits, Format.minExponent]
    omega
  obtain ⟨m', e, hpos, hround, hlow, hhigh, hmin, hmax⟩ :
      ∃ m' e hpos, roundWithAccuracy .binary64 .positive m 0 .exact = .finite .positive m' e hpos ∧ _ :=
    exists_roundWithAccuracy (by omega) (by omega)
  have hfloat : m.toUInt64.toFloat.toModel = Float.Model.pack (.finite .positive m' e hpos) := by
    have hread : m.toUInt64.toFloat.toModel =
        Float.Model.pack (UnpackedFloat.normalize .binary64 m.toUInt64.toNat 0 .positive) := rfl
    rw [hread, htoNat]
    simp only [UnpackedFloat.normalize, hpositive, UnpackedFloat.round, decreaseExponent,
      Int.toNat_natCast, htarget]
    exact congrArg _ hround
  rw [hfloat]
  exact leads_unpack_pack hlow hhigh hpos (by omega) (by omega) (by omega)

/-- A product is infinite where the leading bits of its factors lead beyond the range. -/
theorem isFinite_mul {x y : Float} {e' : Int} (hx : Leads x.toModel.unpack e)
    (hy : Leads y.toModel.unpack e') (hlarge : 920 ≤ e + e') : (x * y).isFinite = false := by
  generalize hfirst : x.toModel.unpack = first at hx
  generalize hsecond : y.toModel.unpack = second at hy
  obtain @⟨sign, m, e₁, _, hpos, hm, he₁⟩ := hx
  obtain @⟨sign', n, e₂, _, hpos', hn, he₂⟩ := hy
  have hproduct : 2 ^ 52 * 2 ^ 52 ≤ m * n := Nat.mul_le_mul hm hn
  have hlog : 104 ≤ (m * n).log2 := (Nat.le_log2 (by omega)).mpr hproduct
  obtain ⟨m', e'', hpos'', hround, -, -, hle, -⟩ :
      ∃ m' e' hpos, roundWithAccuracy .binary64 (sign * sign') (m * n) (e₁ + e₂) .exact =
        .finite (sign * sign') m' e' hpos ∧ _ :=
    exists_roundWithAccuracy (by omega) (by omega)
  have hmul : (x * y).toModel = Float.Model.pack (.finite (sign * sign') m' e'' hpos'') := by
    have hunpacked : (x * y).toModel = Float.Model.pack
        (UnpackedFloat.mul .binary64 x.toModel.unpack y.toModel.unpack) := rfl
    rw [hunpacked, hfirst, hsecond, UnpackedFloat.mul, hround]
  rw [Float.isFinite, hmul]
  exact isFinite_unpack_pack hpos'' (by omega)

end Rounding

/-- The leading bits of the largest powers of ten. -/
theorem leads_powerOfTen :
    Leads (powerOfTen 290).toModel.unpack 911 ∧
      ∀ n < 18, Leads (powerOfTen (291 + n)).toModel.unpack 914 := by
  decide +kernel

variable {number : Number} {m : Nat} {front back digits : List Char}

/-- Digits denote less than the ones in front of them and one more, raised by their number. -/
theorem decimalValue_append_lt (hback : ∀ c ∈ back, c.isDigit = true) :
    decimalValue (front ++ back) < (decimalValue front + 1) * 10 ^ back.length := by
  induction back using List.reverseRecOn with
  | nil => simp
  | append_singleton back c ih =>
    have hc : Text.digitValue c < 10 := (digitChar_digitValue (hback c (by simp))).1
    have hbefore := ih fun c hc => hback c (List.mem_append_left _ hc)
    rw [← List.append_assoc, decimalValue_concat, List.length_append, List.length_singleton,
      Nat.pow_succ, ← Nat.mul_assoc]
    omega

/-- Digits that are cut are almost as many as fit. -/
theorem CutAt.le_of_ne_nil {taken left : List Char} (hcut : CutAt [] taken left) (hleft : left ≠ [])
    (hdigits : ∀ c ∈ left, c.isDigit = true) : 2 ^ 60 ≤ decimalValue taken := by
  obtain ⟨c, rest, rfl⟩ := List.exists_cons_of_ne_nil hleft
  have hfull := hcut.full c rfl
  have hc : Text.digitValue c < 10 := (digitChar_digitValue (hdigits c List.mem_cons_self)).1
  rw [List.nil_append, decimalValue_concat] at hfull
  omega

/-- A number that is large after it is raised is large already where it is not raised enough. -/
theorem pow_le_of_raised {d n k : Nat} (hlarge : 10 ^ d < (m + 1) * 10 ^ n) (hk : n + k ≤ d) :
    10 ^ k ≤ m := by
  refine Nat.le_of_lt_succ (Nat.lt_of_mul_lt_mul_right (a := 10 ^ n) (Nat.lt_of_le_of_lt ?_ hlarge))
  rw [← pow_add, Nat.add_comm]
  exact pow_le_pow_right₀ (by decide) hk

/-- A number that is taken up from the front of too many digits is scaled beyond the range. -/
theorem isFinite_scaled {d n : Nat} (hd : 309 ≤ d) (hbits : m < 2 ^ 64) (hmin : n ≠ 0 → 2 ^ 60 ≤ m)
    (hlarge : 10 ^ d < (m + 1) * 10 ^ n) : (scaled m n).isFinite = false := by
  have hn : 290 ≤ n := by
    by_contra hsmall
    have hfull : 10 ^ 20 ≤ m := pow_le_of_raised hlarge (by omega)
    omega
  have hm : 2 ^ 60 ≤ m := hmin (by omega)
  have hne : m ≠ 0 := by omega
  by_cases hrange : n ≤ 308
  · have hscaled : scaled m n = m.toUInt64.toFloat * powerOfTen n := if_pos hrange
    have hleads := leads_toFloat (by omega) hbits
    rw [hscaled]
    by_cases hfirst : n = 290
    · -- Here the digits that are taken up are as many as fit.
      have hfull : 10 ^ 19 ≤ m := pow_le_of_raised hlarge (by omega)
      have hlog : 63 ≤ m.log2 := (Nat.le_log2 hne).mpr (Nat.le_trans (by decide) hfull)
      rw [hfirst]
      exact isFinite_mul hleads leads_powerOfTen.1 (by omega)
    · obtain ⟨k, rfl⟩ := Nat.exists_eq_add_of_le (show 291 ≤ n by omega)
      have hlog : 60 ≤ m.log2 := (Nat.le_log2 hne).mpr hm
      exact isFinite_mul hleads (leads_powerOfTen.2 k (by omega)) (by omega)
  · have hscaled : scaled m n = 1 / 0 := (if_neg hrange).trans (if_neg hne)
    rw [hscaled]
    decide +kernel

/-- A literal of a natural number with more than three hundred and nine digits stands for no number. -/
theorem Number.isFinite_of_many (hnatural : number.negative = false) (hintegral : number.integral = true)
    (hlarge : 10 ^ 309 ≤ decimalValue number.whole.val) : number.isFinite = false := by
  obtain ⟨hfraction, hexponent⟩ : number.fraction.val = [] ∧ number.exponent = none := by
    simpa [Number.integral] using hintegral
  obtain ⟨whole, left, fraction, dropped, hwhole, hback, hcut, -, hm, hk⟩ := number.cut_parts.digits
  obtain ⟨rfl, rfl⟩ := List.append_eq_nil_iff.mp (hfraction.symm.trans hback).symm
  have hleft : ∀ c ∈ left, c.isDigit = true := fun c hc =>
    number.whole.property c (hwhole ▸ List.mem_append_right _ hc)
  rw [List.append_nil] at hm
  have hpower : number.parts.2 = left.length := by simpa [hexponent] using hk
  have hvalue : decimalValue number.whole.val < (decimalValue whole + 1) * 10 ^ left.length := by
    rw [hwhole]
    exact decimalValue_append_lt hleft
  rw [Number.isFinite, Number.toFloat, hm, hpower, Number.signed, hnatural]
  refine isFinite_scaled (Nat.le_refl 309) hcut.fits (fun hsome => ?_) (Nat.lt_of_le_of_lt hlarge hvalue)
  exact hcut.le_of_ne_nil (List.ne_nil_of_length_pos (Nat.pos_of_ne_zero hsome)) hleft

end ShopValidation.Json
