import Mathlib.Dynamics.FixedPoints.Basic
import ShopValidation.Proofs.Text.IntegerValue

/-!
# Floating-point numbers of literals

A literal is read as the number that its digits make, as many of them as fit sixty-four bits, times the
power of ten that is left. `Number.Denotes` says so without the reader: how the digits are cut,
and which products and quotients are taken. Where all digits fit fifty-three bits and the power is a
small one, both are exact, and the literal is read as the nearest number.
-/

namespace ShopValidation.Json

/-- Digits are cut behind others where one more would not fit sixty-four bits. -/
structure CutAt (before taken left : List Char) : Prop where
  fits : decimalValue (before ++ taken) < 18446744073709551616
  full : ∀ c ∈ left.head?, 18446744073709551616 ≤ decimalValue (before ++ (taken ++ [c]))

/-- The floating-point numbers that a number times a power of ten may be read as. -/
inductive Scales (m : Nat) : Int → Float → Prop
  | raised {n : Nat} (hn : n ≤ 308) : Scales m n (m.toUInt64.toFloat * powerOfTen n)
  | nothing {n : Nat} (hzero : m = 0) (hn : 308 < n) : Scales m n 0
  | lowered {rounds n : Nat} (hpos : 0 < n) (hn : n ≤ 308) :
    Scales m (-(308 * rounds + n : Nat))
      ((· / powerOfTen 308)^[rounds] m.toUInt64.toFloat / powerOfTen n)

namespace Number

/-- The digits of a literal are cut to a number, and a power of ten is left: it has one more for each
digit before the point that is cut off, and one less for each behind it that is not. -/
structure Cut (number : Number) (m : Nat) (k : Int) : Prop where
  digits : ∃ whole left fraction dropped, number.whole.val = whole ++ left ∧
    number.fraction.val = fraction ++ dropped ∧ CutAt [] whole left ∧ CutAt whole fraction dropped ∧
    m = decimalValue (whole ++ fraction) ∧
    k = number.exponent.getD 0 + left.length - fraction.length

/-- A literal stands for a floating-point number. -/
structure Denotes (number : Number) (x : Float) : Prop where
  finite : x.isFinite = true
  reads : ∃ m k size, number.Cut m k ∧ Scales m k size ∧ x = number.signed size

/-- The number that all digits of a literal make. -/
def significand (number : Number) : Nat :=
  decimalValue (number.whole.val ++ number.fraction.val)

/-- The exponent of the power of ten that belongs to all digits of a literal. -/
def power (number : Number) : Int := number.exponent.getD 0 - number.fraction.val.length

/-- Whether the digits of a literal fit fifty-three bits, and its power of ten is exactly a
floating-point number. -/
def IsShort (number : Number) : Prop :=
  number.significand < 9007199254740992 ∧ number.power.natAbs ≤ 22

instance (number : Number) : Decidable number.IsShort := inferInstanceAs (Decidable (_ ∧ _))

/-- The floating-point number that is nearest to a literal. -/
def nearest (number : Number) : Float :=
  number.signed (Float.ofScientific number.significand (number.power < 0) number.power.natAbs)

end Number

variable {number : Number} {before digits taken left : List Char} {m n : Nat} {k : Int} {x : Float}

/-- A digit in front of what is cut may be counted among those before. -/
theorem cutAt_cons {c : Char} : CutAt before (c :: taken) left ↔ CutAt (before ++ [c]) taken left := by
  have hassoc (back : List Char) : before ++ [c] ++ back = before ++ (c :: back) :=
    List.append_assoc before [c] back
  constructor
  · rintro ⟨hfits, hfull⟩
    exact ⟨by rwa [hassoc], fun d hd => by simpa [hassoc] using hfull d hd⟩
  · rintro ⟨hfits, hfull⟩
    exact ⟨by rwa [hassoc] at hfits, fun d hd => by simpa [hassoc] using hfull d hd⟩

/-- Digits are taken up until they are cut. -/
theorem takeUp_eq_iff (hbefore : decimalValue before < 18446744073709551616) :
    takeUp (decimalValue before) digits = (m, left) ↔
      ∃ taken, digits = taken ++ left ∧ CutAt before taken left ∧
        m = decimalValue (before ++ taken) := by
  induction digits generalizing before with
  | nil =>
    constructor
    · intro h
      obtain ⟨rfl, rfl⟩ := Prod.mk.inj h
      exact ⟨[], rfl, ⟨by rwa [List.append_nil], by simp⟩, by rw [List.append_nil]⟩
    · rintro ⟨taken, hdigits, -, rfl⟩
      obtain ⟨rfl, rfl⟩ := List.append_eq_nil_iff.mp hdigits.symm
      rw [List.append_nil]
      rfl
  | cons c rest ih =>
    rw [takeUp, ← decimalValue_concat]
    split
    case isTrue hfits =>
      rw [ih hfits]
      constructor
      · rintro ⟨taken, rfl, hcut, rfl⟩
        exact ⟨c :: taken, rfl, cutAt_cons.mpr hcut, by rw [List.append_assoc, List.singleton_append]⟩
      · rintro ⟨taken, hdigits, hcut, rfl⟩
        cases taken with
        | nil =>
          -- The digits cannot be cut before one that still fits.
          obtain rfl : left = c :: rest := hdigits.symm
          exact absurd (hcut.full c rfl) (Nat.not_le.mpr hfits)
        | cons d taken =>
          obtain ⟨rfl, rfl⟩ := List.cons.inj hdigits
          exact ⟨taken, rfl, cutAt_cons.mp hcut, by rw [List.append_assoc, List.singleton_append]⟩
    case isFalse hover =>
      have hcut : CutAt before [] (c :: rest) :=
        ⟨by rwa [List.append_nil], fun d hd => by simpa using Option.some.inj hd ▸ Nat.not_lt.mp hover⟩
      constructor
      · intro h
        obtain ⟨rfl, rfl⟩ := Prod.mk.inj h
        exact ⟨[], rfl, hcut, by rw [List.append_nil]⟩
      · rintro ⟨taken, hdigits, hother, rfl⟩
        cases taken with
        | nil =>
          obtain rfl : left = c :: rest := hdigits.symm
          rw [List.append_nil]
        | cons d taken =>
          obtain ⟨rfl, -⟩ := List.cons.inj hdigits
          have hle := decimalValue_le_append (before ++ [c]) taken
          have hfits := (cutAt_cons.mp hother).fits
          omega

/-- Dividing in rounds is dividing as many times, since zero stays zero. -/
theorem divided_eq (x : Float) (rounds : Nat) :
    divided x rounds = (· / powerOfTen 308)^[rounds] x := by
  induction rounds generalizing x with
  | zero => rfl
  | succ rounds ih =>
    rw [divided, Function.iterate_succ_apply]
    split
    case isTrue hzero =>
      have hfixed : Function.IsFixedPt (· / powerOfTen 308) (0 : Float) := by
        unfold Function.IsFixedPt
        decide +kernel
      rw [hzero, hfixed.eq, (hfixed.iterate rounds).eq]
    case isFalse => exact ih _

/-- A number is divided in as many rounds as there are whole ones in the power of ten. -/
theorem scaled_negSucc (m rounds : Nat) {n : Nat} (hn : n < 308) :
    scaled m (.negSucc (308 * rounds + n)) =
      (· / powerOfTen 308)^[rounds] m.toUInt64.toFloat / powerOfTen (n + 1) := by
  have hrounds : (308 * rounds + n) / largestPower = rounds := by
    simp only [largestPower]
    omega
  have hrest : (308 * rounds + n) % largestPower = n := by
    simp only [largestPower]
    omega
  rw [scaled, hrounds, hrest, divided_eq]

/-- A number is scaled as it is read, unless it is too large. -/
theorem scales_iff : Scales m k x ↔ scaled m k = x ∧ (308 < k → m = 0) := by
  constructor
  · intro h
    cases h with
    | raised hn => exact ⟨if_pos hn, by omega⟩
    | nothing hzero hn => exact ⟨(if_neg (Nat.not_le.mpr hn)).trans (if_pos hzero), fun _ => hzero⟩
    | @lowered rounds n hpos hn =>
      obtain ⟨n, rfl⟩ := Nat.exists_eq_succ_of_ne_zero (Nat.ne_of_gt hpos)
      exact ⟨scaled_negSucc m rounds hn, by omega⟩
  · rintro ⟨rfl, hsmall⟩
    cases k with
    | ofNat n =>
      by_cases hn : n ≤ 308
      · have hraised : scaled m (.ofNat n) = m.toUInt64.toFloat * powerOfTen n := if_pos hn
        rw [hraised]
        exact .raised hn
      · have hzero : m = 0 := hsmall (Int.ofNat_lt.mpr (Nat.not_le.mp hn))
        have hnothing : scaled m (.ofNat n) = 0 := (if_neg hn).trans (if_pos hzero)
        rw [hnothing]
        exact .nothing hzero (Nat.not_le.mp hn)
    | negSucc n =>
      have hrest : n % 308 < 308 := Nat.mod_lt n (by decide)
      have hpower : Int.negSucc (308 * (n / 308) + n % 308) =
          -(308 * (n / 308) + (n % 308 + 1) : Nat) := rfl
      rw [← Nat.div_add_mod n 308, scaled_negSucc m (n / 308) hrest, hpower]
      exact .lowered (Nat.succ_pos _) hrest

namespace Number

/-- A literal is cut to the parts that are read from it. -/
theorem cut_parts (number : Number) : number.Cut number.parts.1 number.parts.2 := by
  rcases hwhole : takeUp 0 number.whole.val with ⟨front, left⟩
  rcases hfraction : takeUp front number.fraction.val with ⟨significand, dropped⟩
  have hempty : takeUp (decimalValue []) number.whole.val = (front, left) := hwhole
  obtain ⟨whole, hwholeEq, hwholeCut, rfl⟩ := (takeUp_eq_iff (by decide)).mp hempty
  obtain ⟨fraction, hfractionEq, hfractionCut, rfl⟩ := (takeUp_eq_iff hwholeCut.fits).mp hfraction
  refine ⟨whole, left, fraction, dropped, hwholeEq, hfractionEq, hwholeCut, hfractionCut, ?_, ?_⟩
  · simp only [parts, hwhole, hfraction]
    rfl
  · have hlength := congrArg List.length hfractionEq
    rw [List.length_append] at hlength
    simp only [parts, hwhole, hfraction]
    omega

/-- A literal is not cut otherwise. -/
theorem Cut.parts_eq (h : number.Cut m k) : number.parts = (m, k) := by
  obtain ⟨whole, left, fraction, dropped, hwholeEq, hfractionEq, hwholeCut, hfractionCut, rfl, rfl⟩ :=
    h.digits
  have hwhole : takeUp (decimalValue []) number.whole.val = (decimalValue whole, left) :=
    (takeUp_eq_iff (by decide)).mpr ⟨whole, hwholeEq, hwholeCut, rfl⟩
  have hfraction : takeUp (decimalValue whole) number.fraction.val =
      (decimalValue (whole ++ fraction), dropped) :=
    (takeUp_eq_iff hwholeCut.fits).mpr ⟨fraction, hfractionEq, hfractionCut, rfl⟩
  have hempty : takeUp 0 number.whole.val = (decimalValue whole, left) := hwhole
  have hlength := congrArg List.length hfractionEq
  rw [List.length_append] at hlength
  simp only [parts, hempty, hfraction, Prod.mk.injEq, true_and]
  omega

/-- A literal is read as an infinity where it is too large at once. -/
theorem isFinite_of_large (hpower : 308 < number.parts.2) (hsome : number.parts.1 ≠ 0) :
    number.isFinite = false := by
  obtain ⟨n, hn⟩ := Int.eq_ofNat_of_zero_le (Int.le_of_lt (Int.lt_trans (by decide) hpower))
  have hover : ¬n ≤ largestPower := by
    simp only [largestPower]
    omega
  have hscaled : scaled number.parts.1 number.parts.2 = 1 / 0 := by
    rw [hn]
    exact (if_neg hover).trans (if_neg hsome)
  rw [isFinite, toFloat, hscaled, signed]
  cases number.negative <;> decide +kernel

/-- A literal stands for the number that is read from it, if that is finite. -/
theorem denotes_iff : number.Denotes x ↔ number.isFinite = true ∧ number.toFloat = x := by
  constructor
  · rintro ⟨hfinite, m, k, size, hcut, hscales, rfl⟩
    obtain ⟨rfl, -⟩ := scales_iff.mp hscales
    have hvalue : number.toFloat = number.signed (scaled m k) := by rw [toFloat, hcut.parts_eq]
    exact ⟨by rwa [isFinite, hvalue], hvalue⟩
  · rintro ⟨hfinite, rfl⟩
    refine ⟨hfinite, _, _, _, number.cut_parts, scales_iff.mpr ⟨rfl, fun hlarge => ?_⟩, rfl⟩
    by_contra hsome
    rw [isFinite_of_large hlarge hsome] at hfinite
    cases hfinite

/-- A literal stands for one number at most. -/
theorem Denotes.unique (hx : number.Denotes x) {y : Float} (hy : number.Denotes y) : x = y :=
  (denotes_iff.mp hx).2.symm.trans (denotes_iff.mp hy).2

end Number

/-- The small powers of ten are floating-point numbers. -/
theorem powerOfTen_eq (n : Fin 23) : powerOfTen n = Float.exactlyRepresentablePowersOfTen[n] := by
  revert n
  decide +kernel

/-- A number of fifty-three bits is scaled by a small power of ten to the nearest number. -/
theorem scaled_eq_ofScientific (hm : m < 2 ^ 53) (hk : k.natAbs ≤ 22) :
    scaled m k = Float.ofScientific m (k < 0) k.natAbs := by
  cases k with
  | ofNat n =>
    have hn : n ≤ 22 := hk
    have hpower := powerOfTen_eq ⟨n, Nat.lt_succ_of_le hn⟩
    have hraised : scaled m (.ofNat n) = m.toUInt64.toFloat * powerOfTen n :=
      if_pos (Nat.le_trans hn (by decide))
    have hsign : decide (Int.ofNat n < 0) = false := by simp
    rw [hraised, hsign, Float.ofScientific, dif_pos ⟨hm, hn⟩]
    exact congrArg _ hpower
  | negSucc n =>
    have hn : n + 1 ≤ 22 := hk
    have hpower := powerOfTen_eq ⟨n + 1, Nat.lt_succ_of_le hn⟩
    have hlowered := scaled_negSucc m 0 (n := n) (by omega)
    have hsign : decide (Int.negSucc n < 0) = true := by simp
    rw [Nat.mul_zero, Nat.zero_add] at hlowered
    rw [hlowered, hsign, Float.ofScientific, dif_pos ⟨hm, hn⟩]
    exact congrArg _ hpower

/-- Where all digits fit, none is cut off. -/
theorem Number.cut_of_fits (hfits : number.significand < 18446744073709551616) :
    number.Cut number.significand number.power := by
  have hwhole := decimalValue_le_append number.whole.val number.fraction.val
  refine ⟨number.whole.val, [], number.fraction.val, [], (List.append_nil _).symm,
    (List.append_nil _).symm, ⟨Nat.lt_of_le_of_lt hwhole hfits, by simp⟩, ⟨hfits, by simp⟩, rfl, ?_⟩
  simp [Number.power]

/-- A short literal stands for the nearest number. -/
theorem Number.Denotes.eq_nearest (h : number.Denotes x) (hshort : number.IsShort) :
    x = number.nearest := by
  obtain ⟨-, rfl⟩ := denotes_iff.mp h
  obtain ⟨hdigits, hpower⟩ := hshort
  have hcut := number.cut_of_fits (Nat.lt_trans hdigits (by decide))
  rw [toFloat, hcut.parts_eq, scaled_eq_ofScientific hdigits hpower]
  rfl

end ShopValidation.Json
