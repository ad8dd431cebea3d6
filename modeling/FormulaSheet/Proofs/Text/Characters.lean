import FormulaSheet.Text.Blank
import FormulaSheet.Text.Digit
/-!
Classes of characters and runs of them. A run that is followed by nothing of its class is what
`takeWhile` takes. Digits are apart from blanks and, outside the western ones, from ASCII; visible
ASCII has no blanks.
-/

namespace FormulaSheet.Text

theorem ne_of_class {p : Char → Bool} {c d : Char} (inside : p c = true) (outside : p d = false) :
    c ≠ d := by
  rintro rfl
  rw [inside] at outside
  cases outside

/-! Runs. -/

theorem takeWhile_run {p : Char → Bool} {run rest : List Char} (inside : ∀ c ∈ run, p c = true)
    (boundary : ∀ c ∈ rest.head?, p c = false) : (run ++ rest).takeWhile p = run := by
  rw [List.takeWhile_append_of_pos inside]
  cases rest with
  | nil => simp
  | cons c tail => simp [boundary c rfl]

theorem dropWhile_run {p : Char → Bool} {run rest : List Char} (inside : ∀ c ∈ run, p c = true)
    (boundary : ∀ c ∈ rest.head?, p c = false) : (run ++ rest).dropWhile p = rest := by
  rw [List.dropWhile_append_of_pos inside]
  cases rest with
  | nil => rfl
  | cons c tail => simp [boundary c rfl]

/-- A character outside the class ends every run, whatever stands behind it. -/
theorem takeWhile_stop {p : Char → Bool} {c : Char} (h : p c = false) (front rest : List Char) :
    (front ++ c :: rest).takeWhile p = front.takeWhile p := by
  induction front with
  | nil => simp [h]
  | cons d ds ih => simp only [List.cons_append, List.takeWhile_cons, ih]

theorem dropWhile_stop {p : Char → Bool} {c : Char} (h : p c = false) (front rest : List Char) :
    (front ++ c :: rest).dropWhile p = front.dropWhile p ++ c :: rest := by
  induction front with
  | nil => simp [h]
  | cons d ds ih =>
    simp only [List.cons_append, List.dropWhile_cons, ih]
    split <;> rfl

theorem head?_dropWhile {p : Char → Bool} {cs : List Char} :
    ∀ c ∈ (cs.dropWhile p).head?, p c = false := by
  intro c hc
  simpa [Option.mem_def.mp hc] using List.head?_dropWhile_not p cs

theorem mem_takeWhile {p : Char → Bool} {cs : List Char} : ∀ c ∈ cs.takeWhile p, p c = true :=
  List.all_eq_true.mp List.all_takeWhile

/-! Digits. -/

theorem isDigit_iff {c : Char} :
    isDigit c = true ↔ ∃ z ∈ zeros, z ≤ c.toNat ∧ c.toNat < z + 10 := by
  simp [isDigit, digit?]

theorem isAsciiDigit_iff {c : Char} :
    isAsciiDigit c = true ↔ 0x30 ≤ c.toNat ∧ c.toNat ≤ 0x39 := by
  simp only [isAsciiDigit, Bool.and_eq_true, decide_eq_true_eq]
  exact Iff.rfl

theorem isDigit_of_isAsciiDigit {c : Char} (h : isAsciiDigit c = true) : isDigit c = true := by
  have range := isAsciiDigit_iff.mp h
  exact isDigit_iff.mpr ⟨0x30, by decide, by omega⟩

/-- Between the western digits and the first ones of another script stands all of ASCII. -/
theorem toNat_of_isDigit {c : Char} (h : isDigit c = true) :
    0x30 ≤ c.toNat ∧ c.toNat ≤ 0x39 ∨ 0x660 ≤ c.toNat := by
  obtain ⟨z, hz, low, high⟩ := isDigit_iff.mp h
  have apart : ∀ z ∈ zeros, z = 0x30 ∨ 0x660 ≤ z := by decide
  have := apart z hz
  omega

/-! Blanks. -/

theorem isBlank_of_isDigit {c : Char} (h : isDigit c = true) : isBlank c = false := by
  obtain ⟨z, hz, low, high⟩ := isDigit_iff.mp h
  have apart : ∀ z ∈ zeros, ∀ n ∈ blanks, ¬ (z ≤ n ∧ n < z + 10) := by decide
  simp only [isBlank, List.contains_eq_mem, decide_eq_false_iff_not]
  intro blank
  exact apart z hz _ blank ⟨low, high⟩

theorem isBlank_of_visible {c : Char} (low : 0x21 ≤ c.toNat) (high : c.toNat ≤ 0x7E) :
    isBlank c = false := by
  have apart : ∀ n ∈ blanks, n < 0x21 ∨ 0x7E < n := by decide
  simp only [isBlank, List.contains_eq_mem, decide_eq_false_iff_not]
  intro blank
  have := apart _ blank
  omega

/-- A text that neither begins nor ends with a blank is its own trimmed form. -/
theorem trim_of_ends {cs : List Char} (first : ∀ c ∈ cs.head?, isBlank c = false)
    (last : ∀ c ∈ cs.getLast?, isBlank c = false) : trim cs = cs := by
  have front : cs.dropWhile isBlank = cs := by
    cases cs with
    | nil => rfl
    | cons c rest => simp [first c rfl]
  have back : cs.reverse.dropWhile isBlank = cs.reverse := by
    rw [← List.head?_reverse] at last
    cases h : cs.reverse with
    | nil => rfl
    | cons c rest =>
      rw [h] at last
      simp [last c rfl]
  rw [trim, trimRight, front, back, List.reverse_reverse]

end FormulaSheet.Text
