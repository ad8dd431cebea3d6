import FormulaSheet.Proofs.Data.Json.Numbers
/-!
What is written is visible ASCII and spaces, whatever the value is, and tables stand in braces.
-/

namespace FormulaSheet.Json

open Text Decimal

theorem exists_entryChars (entries : List (RawText × RawValue)) :
    ∃ inner, RawValue.entryChars entries = inner ++ ['}'] := by
  induction entries with
  | nil => exact ⟨[], by rw [RawValue.entryChars]; rfl⟩
  | cons e rest ih =>
    obtain ⟨inner, hi⟩ := ih
    exact ⟨',' :: ' ' :: (e.1.chars ++ ':' :: ' ' :: (e.2.chars ++ inner)), by
      simp [RawValue.entryChars, hi]⟩

/-- A table stands in braces. -/
theorem exists_tableChars (entries : List (RawText × RawValue)) :
    ∃ inner, RawValue.chars (.table entries) = '{' :: (inner ++ ['}']) := by
  cases entries with
  | nil => exact ⟨[], by rw [RawValue.chars]; rfl⟩
  | cons e rest =>
    obtain ⟨inner, hi⟩ := exists_entryChars rest
    exact ⟨e.1.chars ++ ':' :: ' ' :: (e.2.chars ++ inner), by simp [RawValue.chars, hi]⟩

theorem isPlainChar_of_isAsciiDigit {c : Char} (h : isAsciiDigit c = true) : IsPlainChar c := by
  have range := isAsciiDigit_iff.mp h
  unfold IsPlainChar
  omega

theorem isPlainChar_signedDigits (i : Int) : ∀ c ∈ signedDigits i, IsPlainChar c := by
  intro c hc
  unfold signedDigits at hc
  split at hc
  · rcases List.mem_cons.mp hc with rfl | hc
    · decide
    · exact isPlainChar_of_isAsciiDigit (isAsciiDigit_digits _ c hc)
  · exact isPlainChar_of_isAsciiDigit (isAsciiDigit_digits _ c hc)

theorem isPlainChar_exponent {e : Exponent} (mark : e.mark = 'e')
    (sign : e.sign = some '+' ∨ e.sign = some '-') (ascii : ∀ c ∈ e.digits, isAsciiDigit c = true) :
    ∀ c ∈ e.chars, IsPlainChar c := by
  intro c hc
  simp only [Exponent.chars, mark, List.mem_cons, List.mem_append, Option.mem_toList] at hc
  rcases hc with rfl | hc | hc
  · decide
  · rcases sign with sign | sign
    · rw [sign] at hc
      cases hc
      decide
    · rw [sign] at hc
      cases hc
      decide
  · exact isPlainChar_of_isAsciiDigit (ascii c hc)

theorem isPlainChar_numeral {n : Numeral} (h : n.Written) : ∀ c ∈ n.chars, IsPlainChar c := by
  obtain ⟨whole, fraction, exponent⟩ := n
  intro c hc
  simp only [Numeral.chars, List.mem_append] at hc
  rcases hc with (hc | hc) | hc
  · exact isPlainChar_of_isAsciiDigit (h.whole c hc)
  · cases fraction with
    | none => cases hc
    | some ds =>
      rcases List.mem_cons.mp hc with rfl | hc
      · decide
      · exact isPlainChar_of_isAsciiDigit ((h.fraction ds rfl).2 c hc)
  · cases exponent with
    | none => cases hc
    | some e =>
      obtain ⟨mark, sign, _, ascii⟩ := h.exponent e rfl
      exact isPlainChar_exponent mark sign ascii c hc

theorem isPlainChar_numberChars (x : Float) : ∀ c ∈ numberChars x, IsPlainChar c := by
  unfold numberChars
  split
  · exact isPlainChar_of_all (by decide)
  · rename_i defined
    split
    · split
      · exact isPlainChar_of_all (by decide)
      · exact isPlainChar_of_all (by decide)
    · rename_i finite
      obtain ⟨n, written, text⟩ := shortest_written (Bool.not_eq_true _ ▸ defined)
        (Bool.not_eq_true _ ▸ finite)
      rw [text]
      intro c hc
      rcases List.mem_append.mp hc with hc | hc
      · split at hc
        · rw [List.mem_singleton.mp hc]
          decide
        · cases hc
      · exact isPlainChar_numeral written c hc

mutual

/-- The text of a value is visible ASCII and spaces. -/
theorem isPlainChar_raw : ∀ (v : RawValue), ∀ c ∈ v.chars, IsPlainChar c
  | .null => isPlainChar_of_all (by decide)
  | .flag true => isPlainChar_of_all (by decide)
  | .flag false => isPlainChar_of_all (by decide)
  | .whole i => isPlainChar_signedDigits i
  | .number x => isPlainChar_numberChars x
  | .text s => isPlainChar_text s
  | .list [] => isPlainChar_of_all (by decide)
  | .table [] => isPlainChar_of_all (by decide)
  | .list (v :: items) => by
    intro c hc
    simp only [RawValue.chars, List.mem_cons, List.mem_append] at hc
    rcases hc with rfl | hc | hc
    · decide
    · exact isPlainChar_raw v c hc
    · exact isPlainChar_itemChars items c hc
  | .table ((k, v) :: entries) => by
    intro c hc
    simp only [RawValue.chars, List.mem_cons, List.mem_append] at hc
    rcases hc with rfl | hc | rfl | rfl | hc | hc
    · decide
    · exact isPlainChar_text k c hc
    · decide
    · decide
    · exact isPlainChar_raw v c hc
    · exact isPlainChar_entryChars entries c hc

theorem isPlainChar_itemChars : ∀ (items : List RawValue),
    ∀ c ∈ RawValue.itemChars items, IsPlainChar c
  | [] => isPlainChar_of_all (by decide)
  | v :: items => by
    intro c hc
    simp only [RawValue.itemChars, List.mem_cons, List.mem_append] at hc
    rcases hc with rfl | rfl | hc | hc
    · decide
    · decide
    · exact isPlainChar_raw v c hc
    · exact isPlainChar_itemChars items c hc

theorem isPlainChar_entryChars : ∀ (entries : List (RawText × RawValue)),
    ∀ c ∈ RawValue.entryChars entries, IsPlainChar c
  | [] => isPlainChar_of_all (by decide)
  | (k, v) :: entries => by
    intro c hc
    simp only [RawValue.entryChars, List.mem_cons, List.mem_append] at hc
    rcases hc with rfl | rfl | hc | rfl | rfl | hc | hc
    · decide
    · decide
    · exact isPlainChar_text k c hc
    · decide
    · decide
    · exact isPlainChar_raw v c hc
    · exact isPlainChar_entryChars entries c hc

end

end FormulaSheet.Json
