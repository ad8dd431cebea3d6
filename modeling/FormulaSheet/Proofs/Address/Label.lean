import Mathlib.Data.List.Basic
import FormulaSheet.Proofs.Address.Column
import FormulaSheet.Proofs.Text.Characters
/-!
Labels, their parts and upper-casing. A label is made of capitals, western digits and perhaps a line
feed, none of which upper-casing changes; so a label is its own key wherever it lies inside the
bounds. A text made of such parts is a label if there are neither too few nor too many capitals and
the digits do not begin with zero.
-/

namespace FormulaSheet.Label

open Text

/-- The parts of a label make it up, and each is of its own kind of characters. -/
structure Parts (label : String) (column row rest : List Char) : Prop where
  whole : label.toList = column ++ row ++ rest
  capitals : ∀ c ∈ column, isCapital c = true
  digits : ∀ c ∈ row, isAsciiDigit c = true
  line : rest = [] ∨ rest = ['\n']

theorem parts_of_split? {label : String} {column row : List Char}
    (h : split? label = some (column, row)) : ∃ rest, Parts label column row rest := by
  unfold split? at h
  dsimp only at h
  split at h
  · rename_i hc
    cases h
    refine ⟨_, ?_, ?_, ?_, hc.2.2.2.2⟩
    · rw [List.append_assoc, List.takeWhile_append_dropWhile, List.takeWhile_append_dropWhile]
    · exact List.all_eq_true.mp List.all_takeWhile
    · exact List.all_eq_true.mp List.all_takeWhile
  · cases h

theorem isCapital_of_isAsciiDigit {c : Char} (h : isAsciiDigit c = true) : isCapital c = false := by
  have digit := isAsciiDigit_iff.mp h
  rw [← Bool.not_eq_true, Column.isCapital_iff]
  omega

/-- The parts of a text are found again if it is a label by them. -/
theorem split?_of_parts {label : String} {column row rest : List Char}
    (parts : Parts label column row rest) (nonempty : row ≠ []) :
    split? label =
      if (1 ≤ column.length ∧ column.length ≤ 3) ∧ row.head? ≠ some '0' then some (column, row)
      else none := by
  obtain ⟨whole, capitals, digits, line⟩ := parts
  have noCapital : ∀ c ∈ (row ++ rest).head?, isCapital c = false := by
    intro c hc
    rw [List.head?_append_of_ne_nil _ nonempty] at hc
    exact isCapital_of_isAsciiDigit (digits c (List.mem_of_mem_head? hc))
  have noDigit : ∀ c ∈ rest.head?, isAsciiDigit c = false := by
    intro c hc
    rcases line with rfl | rfl
    · cases hc
    · cases hc
      decide
  unfold split?
  simp only [whole, List.append_assoc, takeWhile_run capitals noCapital,
    dropWhile_run capitals noCapital, takeWhile_run digits noDigit, dropWhile_run digits noDigit]
  simp [nonempty, line, and_assoc]

theorem isLabel_of_parts {label : String} {column row rest : List Char}
    (parts : Parts label column row rest) (nonempty : row ≠ []) :
    isLabel label = true ↔ (1 ≤ column.length ∧ column.length ≤ 3) ∧ row.head? ≠ some '0' := by
  rw [isLabel, split?_of_parts parts nonempty]
  split <;> simp_all

theorem toNat_lt_of_isCapital {c : Char} (h : isCapital c = true) : c.toNat < 0x61 := by
  have range := Column.isCapital_iff.mp h
  omega

theorem toNat_lt_of_isAsciiDigit {c : Char} (h : isAsciiDigit c = true) : c.toNat < 0x61 := by
  have range := isAsciiDigit_iff.mp h
  omega

theorem upper_of_ascii {text : String} (ascii : ∀ c ∈ text.toList, c.toNat < 0x80) :
    upper text = String.ofList (text.toList.map Char.toUpper) := by
  have single : ∀ c ∈ text.toList, upperChar c = [c.toUpper] := fun c hc => if_pos (ascii c hc)
  rw [upper, List.flatMap_def, List.map_congr_left single, ← List.flatMap_def, List.map_eq_flatMap]

theorem toUpper_of_lt {c : Char} (h : c.toNat < 0x61) : c.toUpper = c := by
  have small : ¬ ('a'.val ≤ c.val ∧ c.val ≤ 'z'.val) := by
    intro hc
    have le : 0x61 ≤ c.toNat := UInt32.le_iff_toNat_le.mp hc.1
    omega
  exact dif_neg small

/-- A text without characters from the small letters on is its own upper-case form. -/
theorem upper_of_lt {text : String} (low : ∀ c ∈ text.toList, c.toNat < 0x61) :
    upper text = text := by
  have fixed : ∀ c ∈ text.toList, c.toUpper = c := fun c hc => toUpper_of_lt (low c hc)
  rw [upper_of_ascii fun c hc => Nat.lt_trans (low c hc) (by decide), List.map_congr_left fixed,
    List.map_id', String.ofList_toList]

theorem upper_of_isLabel {label : String} (h : isLabel label = true) : upper label = label := by
  obtain ⟨⟨column, row⟩, hs⟩ := Option.isSome_iff_exists.mp h
  obtain ⟨rest, parts⟩ := parts_of_split? hs
  apply upper_of_lt
  intro c hc
  rw [parts.whole, List.mem_append, List.mem_append] at hc
  rcases hc with (hc | hc) | hc
  · exact toNat_lt_of_isCapital (parts.capitals c hc)
  · exact toNat_lt_of_isAsciiDigit (parts.digits c hc)
  · rcases parts.line with hr | hr
    · rw [hr] at hc
      cases hc
    · rw [hr, List.mem_singleton] at hc
      rw [hc]
      decide

theorem isLabel_of_parse? {label : String} {p : Position} (h : parse? label = some p) :
    isLabel label = true := by
  obtain ⟨parts, hs, _⟩ := Option.map_eq_some_iff.mp h
  rw [isLabel, hs, Option.isSome_some]

theorem isKey_iff {rows columns : Nat} {k : String} :
    isKey rows columns k = true ↔ ∃ p, parse? k = some p ∧ p.row < rows ∧ p.column < columns := by
  constructor
  · intro h
    simp only [isKey, Bool.and_eq_true, Option.any_eq_true, decide_eq_true_eq] at h
    exact h.2
  · rintro ⟨p, hp, row, column⟩
    simp [isKey, hp, row, column, upper_of_isLabel (isLabel_of_parse? hp)]

theorem isLabel_of_isKey {rows columns : Nat} {k : String} (h : isKey rows columns k = true) :
    isLabel k = true := by
  obtain ⟨p, hp, _⟩ := isKey_iff.mp h
  exact isLabel_of_parse? hp

end FormulaSheet.Label
