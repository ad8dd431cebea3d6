import FormulaSheet.Proofs.Decimal.Digits
import FormulaSheet.Proofs.Decimal.Numeral
/-!
Whole numbers as floats. The digits of a whole number read as the float nearest to it. Numbers too
long for a float are not computed when they are read; they read as infinity, which is what computing
them comes to.
-/

namespace FormulaSheet.Decimal

open Text

/-! Rounding beyond the range of floats. -/

section Rounding

open Float.Model Float.Model.UnpackedFloat

theorem mantissa_shift (em : ExtendedMantissa) (k : Nat) :
    (em >>> k).mantissa = em.mantissa >>> k := by
  induction k with
  | zero => rfl
  | succ k ih =>
    have step : (em >>> (k + 1)).mantissa = (em >>> k).mantissa / 2 := rfl
    rw [step, ih, Nat.shiftRight_succ]

theorem mantissa_ofMantissaAndAccuracy (m : Nat) (a : Accuracy) :
    (ExtendedMantissa.ofMantissaAndAccuracy m a).mantissa = m := by
  cases a with
  | exact => rfl
  | inexact o => cases o <;> rfl

theorem le_roundedMantissa (em : ExtendedMantissa) : em.mantissa ≤ em.roundedMantissa := by
  unfold ExtendedMantissa.roundedMantissa
  cases em.accuracy with
  | exact => exact Nat.le_refl _
  | inexact o =>
    cases o with
    | lt => exact Nat.le_refl _
    | eq => exact Nat.le_add_right _ _
    | gt => exact Nat.le_add_right _ _

theorem ne_zero_of_lt_log2 {n k : Nat} (h : k < n.log2) : n ≠ 0 := by
  rintro rfl
  simp at h

/-- A mantissa of 53 bits or more is shifted until 53 bits are left. -/
theorem shiftToTargetExponent_full {m : Nat} (full : 52 ≤ m.log2) {e : Int} (above : -1074 ≤ e)
    (a : Accuracy) :
    52 ≤ (shiftToTargetExponent .binary64 m e a).1.mantissa.log2 ∧
      (shiftToTargetExponent .binary64 m e a).2 = e + (m.log2 - 52) := by
  have target : Format.binary64.targetExponent (totalExponent m e) = e + (m.log2 - 52) := by
    change max ((m.log2 : Int) + 1 + e - 53) (-1074) = _
    omega
  have amount : (e + ((m.log2 : Int) - 52) - e).toNat = m.log2 - 52 := by omega
  have bits : 2 ^ 52 * 2 ^ (m.log2 - 52) ≤ m := by
    rw [← Nat.pow_add, Nat.add_sub_cancel' full]
    exact Nat.log2_self_le (ne_zero_of_lt_log2 full)
  have left : 2 ^ 52 ≤ m >>> (m.log2 - 52) := by
    rw [Nat.shiftRight_eq_div_pow]
    exact (Nat.le_div_iff_mul_le (Nat.two_pow_pos _)).mpr bits
  simp only [shiftToTargetExponent, shiftToExponent, target, amount, mantissa_shift,
    mantissa_ofMantissaAndAccuracy]
  refine ⟨(Nat.le_log2 (by omega)).mpr left, by omega⟩

theorem eq_of_toBits {x y : Float.Model} (h : x.toBits = y.toBits) : x = y := by
  cases x
  cases y
  cases h
  rfl

/-- The exponent only grows by the shifts, so what begins too large ends as infinity. -/
theorem pack_roundWithAccuracy_of_large {m : Nat} (full : 52 ≤ m.log2) {e : Int}
    (above : -1074 ≤ e) (large : 1024 ≤ m.log2 + e) (s : Sign) (a : Accuracy) :
    pack (roundWithAccuracy .binary64 s m e a) = pack (.infinity s) := by
  obtain ⟨first, exponent⟩ := shiftToTargetExponent_full full above a
  generalize shifted : shiftToTargetExponent .binary64 m e a = p at first exponent
  obtain ⟨em, e₁⟩ := p
  have rounded : 52 ≤ em.roundedMantissa.log2 := by
    have more := le_roundedMantissa em
    have nonzero : em.mantissa ≠ 0 := ne_zero_of_lt_log2 first
    exact (Nat.le_log2 (by omega)).mpr (Nat.le_trans ((Nat.le_log2 nonzero).mp first) more)
  have inRange : -1074 ≤ e₁ := by
    dsimp only at exponent
    omega
  obtain ⟨second, exponent'⟩ := shiftToTargetExponent_full rounded inRange .exact
  generalize again : shiftToTargetExponent .binary64 em.roundedMantissa e₁ .exact = q
    at second exponent'
  obtain ⟨em', e₂⟩ := q
  have nonzero : em'.mantissa ≠ 0 := ne_zero_of_lt_log2 second
  have rounds : roundWithAccuracy .binary64 s m e a =
      .finite s em'.mantissa e₂ (Nat.pos_of_ne_zero nonzero) := by
    rw [roundWithAccuracy, shifted]
    dsimp only
    rw [again]
    exact dif_neg nonzero
  have far : 972 ≤ e₂ := by
    dsimp only at exponent exponent'
    omega
  have packed : UnpackedFloat.pack Format.binary64
      (.finite s em'.mantissa e₂ (Nat.pos_of_ne_zero nonzero)) =
        UnpackedFloat.pack Format.binary64 (.infinity s) := by
    have beyond : 2 ^ 11 ≤ (e₂ + (1023 : Nat) + (52 : Nat)).toNat + 1 := by omega
    exact if_pos beyond
  rw [rounds]
  exact eq_of_toBits (congrArg UInt64.ofBitVec packed)

theorem add_le_log2_shiftLeft {n k : Nat} (nonzero : n ≠ 0) (h : k ≤ n.log2) (j : Nat) :
    k + j ≤ (n <<< j).log2 := by
  have positive : 0 < n <<< j := by
    rw [Nat.shiftLeft_eq]
    exact Nat.mul_pos (Nat.pos_of_ne_zero nonzero) (Nat.two_pow_pos j)
  rw [Nat.le_log2 (Nat.ne_of_gt positive), Nat.shiftLeft_eq, Nat.pow_add]
  exact Nat.mul_le_mul_right _ ((Nat.le_log2 nonzero).mp h)

theorem ofNat_of_large {n : Nat} (large : 1024 ≤ n.log2) : Float.ofNat n = 1.0 / 0.0 := by
  have nonzero := ne_zero_of_lt_log2 large
  have long : ¬ (n < 2 ^ 53 ∧ 0 ≤ 22) := by
    rintro ⟨short, _⟩
    have := (Nat.log2_lt nonzero).mpr short
    omega
  have shifted := add_le_log2_shiftLeft nonzero large 53
  have scientific : Float.ofNat n = ⟨Float.Model.ofScientific n 0⟩ := by
    change Float.ofScientific n false 0 = _
    rw [Float.ofScientific, dif_neg long]
    rfl
  have product : UnpackedFloat.ofScientific .binary64 n 0 =
      roundWithAccuracy .binary64 .positive (n <<< 53 * 1) (-53) .exact := by
    have range : (0 : Int) ≤ 2 ^ Format.binary64.exponentBits := by decide
    rw [UnpackedFloat.ofScientific, dif_neg nonzero, if_neg (by decide), if_neg (by omega),
      if_pos (by decide)]
    rfl
  have infinite : (1.0 / 0.0 : Float) = ⟨Float.Model.pack (.infinity .positive)⟩ := by
    decide +kernel
  rw [scientific, infinite, Float.Model.ofScientific, product, Nat.mul_one,
    pack_roundWithAccuracy_of_large (by omega) (by decide) (by omega)]

end Rounding

/-! Reading whole numbers. -/

theorem pow_le_of_lt_length {n : Nat} (nonzero : n ≠ 0) {k : Nat} (h : k < (digits n).length) :
    Nat.pow 10 k ≤ n := by
  induction n using digits.induct generalizing k with
  | case1 n small =>
    rw [digits, if_pos small, List.length_singleton, Nat.lt_one_iff] at h
    rw [h]
    exact Nat.pos_of_ne_zero nonzero
  | case2 n large ih =>
    rw [digits, if_neg large, List.length_append, List.length_singleton] at h
    cases k with
    | zero => exact Nat.pos_of_ne_zero nonzero
    | succ k =>
      have front := ih (by omega) (Nat.lt_of_succ_lt_succ h)
      change Nat.pow 10 k * 10 ≤ n
      omega

theorem nearestFloat_whole (n : Nat) : Numeral.nearestFloat n 0 = Float.ofNat n := by
  by_cases zero : n = 0
  · subst zero
    decide +kernel
  · have inRange : ¬ (0 + ((digits n).length : Int) < -330) := by omega
    rw [Numeral.nearestFloat, if_neg zero]
    dsimp only
    -- longer ones are taken for infinity without computing them, which is right beyond 2 to the 1024
    by_cases long : 310 < 0 + ((digits n).length : Int)
    · have digits := pow_le_of_lt_length zero (k := 310) (by omega)
      have large : 1024 ≤ n.log2 :=
        (Nat.le_log2 zero).mpr (Nat.le_trans (by decide +kernel) digits)
      rw [if_pos long, ofNat_of_large large]
    · rw [if_neg long, if_neg inRange]
      rfl

/-- The digits of a number, without point and exponent. -/
def wholeNumeral (n : Nat) : Numeral := ⟨digits n, none, none⟩

theorem formed_wholeNumeral (n : Nat) : (wholeNumeral n).Formed := by
  refine ⟨?_, by simp [wholeNumeral], by simp [wholeNumeral, digits_ne_nil], by simp [wholeNumeral]⟩
  exact fun c hc => isDigit_of_isAsciiDigit (isAsciiDigit_digits n c hc)

theorem chars_wholeNumeral (n : Nat) : (wholeNumeral n).chars = digits n := by
  simp [wholeNumeral, Numeral.chars]

theorem value_wholeNumeral (n : Nat) : (wholeNumeral n).value = Float.ofNat n := by
  rw [← nearestFloat_whole, Numeral.value]
  simp [wholeNumeral, digitsValue_digits]

theorem signedDigits_eq (i : Int) :
    signedDigits i = (minus (decide (i < 0))).toList ++ (wholeNumeral i.natAbs).chars := by
  rw [signedDigits, chars_wholeNumeral]
  by_cases negative : i < 0 <;> simp [minus, negative]

/-- A whole number is read from its digits as the float that it is converted to. -/
theorem readNumber?_signedDigits (i : Int) :
    readNumber? (signedDigits i) = some (Float.ofInt i) := by
  rw [signedDigits_eq, readNumber?_chars (formed_wholeNumeral _), value_wholeNumeral]
  cases i with
  | ofNat n =>
    rw [if_neg (by simp)]
    rfl
  | negSucc n =>
    rw [if_pos (by simp [Int.negSucc_lt_zero])]
    rfl

end FormulaSheet.Decimal
