import Mathlib.Data.List.Induction
import FormulaSheet.Address.Label
/-!
Column letters and column numbers. There is no letter for zero, so each number has one spelling:
capitals are the letters of what they stand for, and a number is what its letters stand for.
-/

namespace FormulaSheet.Column

open Label

theorem isCapital_iff {c : Char} : isCapital c = true ↔ 0x41 ≤ c.toNat ∧ c.toNat ≤ 0x5A := by
  simp only [isCapital, Bool.and_eq_true, decide_eq_true_eq]
  exact Iff.rfl

theorem toNat_letter {d : Nat} (h : d < 26) : (letter d).toNat = 0x41 + d := by
  have all : ∀ d < 26, (letter d).toNat = 0x41 + d := by decide
  exact all d h

theorem isCapital_letter {d : Nat} (h : d < 26) : isCapital (letter d) = true := by
  rw [isCapital_iff, toNat_letter h]
  omega

theorem letter_of_isCapital {c : Char} (h : isCapital c = true) : letter (c.toNat - 0x41) = c := by
  have range := isCapital_iff.mp h
  apply Char.toNat_inj.mp
  rw [toNat_letter (by omega)]
  omega

theorem ordinal_append_singleton (cs : List Char) {c : Char} (h : isCapital c = true) :
    ordinal (cs ++ [c]) = ordinal cs * 26 + (c.toNat - 0x41 : Nat) + 1 := by
  have range := isCapital_iff.mp h
  have base : 'A'.toNat = 0x41 := rfl
  simp only [ordinal, List.foldl_append, List.foldl_cons, List.foldl_nil, base]
  omega

theorem ordinal_nonneg {cs : List Char} (h : ∀ c ∈ cs, isCapital c = true) : 0 ≤ ordinal cs := by
  induction cs using List.reverseRecOn with
  | nil => simp [ordinal]
  | append_singleton front c ih =>
    have := ih fun d hd => h d (by simp [hd])
    rw [ordinal_append_singleton front (h c (by simp))]
    omega

theorem ordinal_pos {cs : List Char} (h : ∀ c ∈ cs, isCapital c = true) (some : cs ≠ []) :
    0 < ordinal cs := by
  induction cs using List.reverseRecOn with
  | nil => exact absurd rfl some
  | append_singleton front c ih =>
    have := ordinal_nonneg fun d hd => h d (List.mem_append_left [c] hd)
    rw [ordinal_append_singleton front (h c (by simp))]
    omega

theorem lettersOfOrdinal_ordinal {cs : List Char} (h : ∀ c ∈ cs, isCapital c = true) :
    lettersOfOrdinal (ordinal cs).toNat = cs := by
  induction cs using List.reverseRecOn with
  | nil =>
    rw [ordinal, lettersOfOrdinal]
    rfl
  | append_singleton front c ih =>
    have capital := h c (by simp)
    have inFront : ∀ d ∈ front, isCapital d = true := fun d hd => h d (by simp [hd])
    have range := isCapital_iff.mp capital
    have nonneg := ordinal_nonneg inFront
    rw [ordinal_append_singleton front capital, lettersOfOrdinal]
    have number : (ordinal front * 26 + (c.toNat - 0x41 : Nat) + 1).toNat =
        (ordinal front).toNat * 26 + (c.toNat - 0x41) + 1 := by
      omega
    have quotient : ((ordinal front).toNat * 26 + (c.toNat - 0x41) + 1 - 1) / 26 =
        (ordinal front).toNat := by
      omega
    have remainder : ((ordinal front).toNat * 26 + (c.toNat - 0x41) + 1 - 1) % 26 =
        c.toNat - 0x41 := by
      omega
    rw [number, if_neg (Nat.succ_ne_zero _), quotient, remainder, ih inFront,
      letter_of_isCapital capital]

theorem letters_index {cs : List Char} (h : ∀ c ∈ cs, isCapital c = true) :
    letters (index cs) = cs := by
  rw [letters, index, Int.sub_add_cancel, lettersOfOrdinal_ordinal h]

/-! Numbers and their letters. -/

theorem lettersOfOrdinal_of_ne_zero {n : Nat} (h : n ≠ 0) :
    lettersOfOrdinal n = lettersOfOrdinal ((n - 1) / 26) ++ [letter ((n - 1) % 26)] := by
  rw [lettersOfOrdinal, if_neg h]

theorem isCapital_lettersOfOrdinal (n : Nat) : ∀ c ∈ lettersOfOrdinal n, isCapital c = true := by
  induction n using lettersOfOrdinal.induct with
  | case1 =>
    rw [lettersOfOrdinal, if_pos rfl]
    intro c hc
    cases hc
  | case2 n some ih =>
    rw [lettersOfOrdinal_of_ne_zero some]
    intro c hc
    rcases List.mem_append.mp hc with hc | hc
    · exact ih c hc
    · rw [List.mem_singleton.mp hc]
      exact isCapital_letter (Nat.mod_lt _ (by decide))

theorem ordinal_lettersOfOrdinal (n : Nat) : ordinal (lettersOfOrdinal n) = n := by
  induction n using lettersOfOrdinal.induct with
  | case1 =>
    rw [lettersOfOrdinal, if_pos rfl]
    rfl
  | case2 n some ih =>
    have digit : (n - 1) % 26 < 26 := Nat.mod_lt _ (by decide)
    rw [lettersOfOrdinal_of_ne_zero some, ordinal_append_singleton _ (isCapital_letter digit), ih,
      toNat_letter digit]
    omega

/-- The greatest number with no more than `k` letters. -/
def lastOrdinal : Nat → Nat
  | 0 => 0
  | k + 1 => 26 * lastOrdinal k + 26

theorem length_lettersOfOrdinal_le_iff {k n : Nat} :
    (lettersOfOrdinal n).length ≤ k ↔ n ≤ lastOrdinal k := by
  induction k generalizing n with
  | zero =>
    by_cases zero : n = 0
    · subst zero
      simp [lettersOfOrdinal, lastOrdinal]
    · rw [lettersOfOrdinal_of_ne_zero zero, List.length_append, List.length_singleton, lastOrdinal]
      omega
  | succ k ih =>
    by_cases zero : n = 0
    · subst zero
      simp [lettersOfOrdinal]
    · rw [lettersOfOrdinal_of_ne_zero zero, List.length_append, List.length_singleton,
        Nat.add_le_add_iff_right, ih, lastOrdinal]
      omega

theorem letters_ne_nil_iff {i : Int} : letters i ≠ [] ↔ 0 ≤ i := by
  rw [letters]
  by_cases below : i < 0
  · have zero : (i + 1).toNat = 0 := by omega
    rw [zero, lettersOfOrdinal, if_pos rfl]
    simp [below]
  · rw [lettersOfOrdinal_of_ne_zero (by omega)]
    simp only [ne_eq, List.append_eq_nil_iff, List.cons_ne_self, and_false, not_false_eq_true,
      true_iff]
    omega

theorem index_letters {i : Int} (h : 0 ≤ i) : index (letters i) = i := by
  rw [index, letters, ordinal_lettersOfOrdinal]
  omega

theorem isCapital_letters (i : Int) : ∀ c ∈ letters i, isCapital c = true :=
  isCapital_lettersOfOrdinal _

end FormulaSheet.Column
