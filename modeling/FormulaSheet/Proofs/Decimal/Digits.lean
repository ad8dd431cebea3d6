import Mathlib.Algebra.Group.Nat.Defs
import Mathlib.Data.List.Basic
import Mathlib.Data.List.Induction
import FormulaSheet.Decimal.Digits
import FormulaSheet.Proofs.Text.Characters
/-!
Digits of a number and the number of digits. Western digits without a leading zero are the digits
of what they stand for, and a number is what its digits stand for.
-/

namespace FormulaSheet.Decimal

open Text

theorem digit?_of_isAsciiDigit {c : Char} (h : isAsciiDigit c = true) :
    digit? c = some (c.toNat - 0x30) := by
  have range := isAsciiDigit_iff.mp h
  have first : (0x30 ≤ c.toNat && c.toNat < 0x30 + 10) = true := by
    simp only [Bool.and_eq_true, decide_eq_true_eq]
    omega
  simp [digit?, zeros, first]

theorem toNat_digitChar {d : Nat} (h : d < 10) : (digitChar d).toNat = 0x30 + d := by
  have all : ∀ d < 10, (digitChar d).toNat = 0x30 + d := by decide
  exact all d h

theorem isAsciiDigit_digitChar {d : Nat} (h : d < 10) : isAsciiDigit (digitChar d) = true := by
  rw [isAsciiDigit_iff, toNat_digitChar h]
  omega

theorem digitChar_of_isAsciiDigit {c : Char} (h : isAsciiDigit c = true) :
    digitChar (c.toNat - 0x30) = c := by
  have range := isAsciiDigit_iff.mp h
  apply Char.toNat_inj.mp
  rw [toNat_digitChar (by omega)]
  omega

theorem digitsValue_append_singleton (cs : List Char) {c : Char} (h : isAsciiDigit c = true) :
    digitsValue (cs ++ [c]) = 10 * digitsValue cs + (c.toNat - 0x30) := by
  simp [digitsValue, digit?_of_isAsciiDigit h]

theorem isAsciiDigit_digits (n : Nat) : ∀ c ∈ digits n, isAsciiDigit c = true := by
  induction n using digits.induct with
  | case1 n small =>
    rw [digits, if_pos small]
    intro c hc
    rw [List.mem_singleton.mp hc]
    exact isAsciiDigit_digitChar small
  | case2 n large ih =>
    rw [digits, if_neg large]
    intro c hc
    rcases List.mem_append.mp hc with hc | hc
    · exact ih c hc
    · rw [List.mem_singleton.mp hc]
      exact isAsciiDigit_digitChar (Nat.mod_lt _ (by decide))

theorem digits_ne_nil (n : Nat) : digits n ≠ [] := by
  rw [digits]
  split <;> simp

theorem digitsValue_digits (n : Nat) : digitsValue (digits n) = n := by
  induction n using digits.induct with
  | case1 n small =>
    have single := digitsValue_append_singleton [] (isAsciiDigit_digitChar small)
    rw [List.nil_append] at single
    rw [digits, if_pos small, single, toNat_digitChar small]
    simp [digitsValue]
  | case2 n large ih =>
    have last : n % 10 < 10 := Nat.mod_lt _ (by decide)
    rw [digits, if_neg large, digitsValue_append_singleton _ (isAsciiDigit_digitChar last), ih,
      toNat_digitChar last]
    omega

/-- Only zero has digits that begin with zero. -/
theorem head?_digits {n : Nat} (h : n ≠ 0) : (digits n).head? ≠ some '0' := by
  induction n using digits.induct with
  | case1 n small =>
    rw [digits, if_pos small]
    intro zero
    have same := congrArg Char.toNat (Option.some.inj zero)
    rw [toNat_digitChar small] at same
    exact h (by simpa using same)
  | case2 n large ih =>
    rw [digits, if_neg large, List.head?_append_of_ne_nil _ (digits_ne_nil _)]
    exact ih (by omega)

theorem digitsValue_pos {ds : List Char} (h : ∀ c ∈ ds, isAsciiDigit c = true) (some : ds ≠ [])
    (lead : ds.head? ≠ Option.some '0') : 0 < digitsValue ds := by
  induction ds using List.reverseRecOn with
  | nil => exact absurd rfl some
  | append_singleton front c ih =>
    have digit := h c (by simp)
    have range := isAsciiDigit_iff.mp digit
    rw [digitsValue_append_singleton _ digit]
    by_cases alone : front = []
    · have zero : c.toNat ≠ 0x30 := by
        intro zero
        apply lead
        rw [alone, List.nil_append, List.head?_cons, Option.some.injEq]
        exact Char.toNat_inj.mp zero
      omega
    · rw [List.head?_append_of_ne_nil _ alone] at lead
      have := ih (fun d hd => h d (by simp [hd])) alone lead
      omega

theorem digits_digitsValue {ds : List Char} (h : ∀ c ∈ ds, isAsciiDigit c = true) (some : ds ≠ [])
    (lead : ds.head? ≠ Option.some '0') : digits (digitsValue ds) = ds := by
  induction ds using List.reverseRecOn with
  | nil => exact absurd rfl some
  | append_singleton front c ih =>
    have digit := h c (by simp)
    have range := isAsciiDigit_iff.mp digit
    rw [digitsValue_append_singleton _ digit, digits]
    by_cases alone : front = []
    · subst alone
      have value : 10 * digitsValue [] + (c.toNat - 0x30) = c.toNat - 0x30 := by simp [digitsValue]
      rw [value, if_pos (by omega), digitChar_of_isAsciiDigit digit, List.nil_append]
    · have inFront : ∀ d ∈ front, isAsciiDigit d = true := fun d hd => h d (by simp [hd])
      rw [List.head?_append_of_ne_nil _ alone] at lead
      have positive := digitsValue_pos inFront alone lead
      have quotient : (10 * digitsValue front + (c.toNat - 0x30)) / 10 = digitsValue front := by
        omega
      have remainder : (10 * digitsValue front + (c.toNat - 0x30)) % 10 = c.toNat - 0x30 := by
        omega
      rw [if_neg (by omega), quotient, remainder, ih inFront alone lead,
        digitChar_of_isAsciiDigit digit]

theorem length_digits_le_iff {n k : Nat} (positive : 0 < k) :
    (digits n).length ≤ k ↔ n < 10 ^ k := by
  induction n using digits.induct generalizing k with
  | case1 n small =>
    have least : 10 ^ 1 ≤ 10 ^ k := Nat.pow_le_pow_right (by decide) positive
    rw [digits, if_pos small, List.length_singleton]
    omega
  | case2 n large ih =>
    rw [digits, if_neg large, List.length_append, List.length_singleton]
    cases k with
    | zero => cases positive
    | succ k =>
      rw [Nat.add_le_add_iff_right]
      by_cases last : k = 0
      · have some := List.length_pos_iff.mpr (digits_ne_nil (n / 10))
        subst last
        omega
      · rw [ih (Nat.pos_of_ne_zero last), Nat.div_lt_iff_lt_mul (by decide), Nat.pow_succ]

theorem isWritable_iff {i : Int} : isWritable i = true ↔ i.natAbs < 10 ^ digitLimit := by
  rw [isWritable, decide_eq_true_iff, length_digits_le_iff (by decide)]

/-- The least number with one digit more than is written. -/
theorem isWritable_pow : isWritable ((10 ^ digitLimit : Nat) : Int) = false := by
  rw [Bool.eq_false_iff, ne_eq, isWritable_iff, Int.natAbs_natCast]
  exact Nat.lt_irrefl _

theorem signedDigits_natCast (n : Nat) : signedDigits n = digits n := by
  rw [signedDigits, if_neg (by omega), Int.natAbs_natCast]

end FormulaSheet.Decimal
