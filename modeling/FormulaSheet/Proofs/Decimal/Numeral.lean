import FormulaSheet.Decimal.Numeral
import FormulaSheet.Proofs.Text.Characters
/-!
The numerals: which texts they are made of, and that the longest numeral at the front of a text is
found whenever what follows cannot be part of it.
-/

namespace FormulaSheet.Decimal

open Text

structure Exponent.Formed (e : Exponent) : Prop where
  mark : e.mark = 'e' ∨ e.mark = 'E'
  sign : ∀ s ∈ e.sign, s = '+' ∨ s = '-'
  digits : ∀ c ∈ e.digits, isDigit c = true
  nonempty : e.digits ≠ []

/-- Digits with an optional point among, before or behind them, and an optional exponent. -/
structure Numeral.Formed (n : Numeral) : Prop where
  whole : ∀ c ∈ n.whole, isDigit c = true
  fraction : ∀ ds ∈ n.fraction, ∀ c ∈ ds, isDigit c = true
  nonempty : n.whole ++ n.fraction.getD [] ≠ []
  exponent : ∀ e ∈ n.exponent, e.Formed

/-- No numeral in front can go on into the text. -/
def NumeralEnds (rest : List Char) : Prop :=
  ∀ c ∈ rest.head?, isDigit c = false ∧ c ≠ '.' ∧ c ≠ 'e' ∧ c ≠ 'E'

theorem digits_end {rest : List Char} (ends : NumeralEnds rest) :
    ∀ c ∈ rest.head?, isDigit c = false := fun c hc => (ends c hc).1

/-! What is found is formed. -/

theorem sign_of_scanSign (cs : List Char) : ∀ s ∈ (scanSign cs).1, s = '+' ∨ s = '-' := by
  intro s hs
  unfold scanSign at hs
  split at hs
  · exact .inl (Option.some.inj hs).symm
  · exact .inr (Option.some.inj hs).symm
  · cases hs

theorem formed_of_scanExponent? {cs rest : List Char} {e : Exponent}
    (h : scanExponent? cs = some (e, rest)) : e.Formed := by
  unfold scanExponent? at h
  split at h
  · contradiction
  · rename_i c tail
    dsimp only at h
    split at h
    · rename_i mark
      split at h
      · contradiction
      · rename_i some
        cases h
        exact ⟨by simpa using mark, sign_of_scanSign tail, mem_takeWhile, by simpa using some⟩
    · contradiction

theorem formed_of_scanMantissa? {cs rest : List Char} {n : Numeral}
    (h : Numeral.scanMantissa? cs = some (n, rest)) : n.Formed := by
  unfold Numeral.scanMantissa? at h
  split at h
  · rename_i tail _
    dsimp only at h
    split at h
    · contradiction
    · rename_i some
      cases h
      refine ⟨mem_takeWhile, ?_, ?_, by simp⟩
      · intro ds hds
        cases hds
        exact mem_takeWhile
      · simp_all
  · dsimp only at h
    split at h
    · contradiction
    · rename_i some
      cases h
      exact ⟨mem_takeWhile, by simp, by simpa using some, by simp⟩

theorem formed_of_scan? {cs rest : List Char} {n : Numeral}
    (h : Numeral.scan? cs = some (n, rest)) : n.Formed := by
  unfold Numeral.scan? at h
  obtain ⟨⟨m, tail⟩, hm, h⟩ := Option.map_eq_some_iff.mp h
  have mantissa := formed_of_scanMantissa? hm
  dsimp only at h
  split at h
  · rename_i e more he
    cases h
    refine ⟨mantissa.whole, mantissa.fraction, mantissa.nonempty, ?_⟩
    intro e' he'
    cases he'
    exact formed_of_scanExponent? he
  · cases h
    exact mantissa

/-! What is formed is found. -/

theorem scanSign_of_digits {cs : List Char} (h : ∀ c ∈ cs.head?, c ≠ '+' ∧ c ≠ '-') :
    scanSign cs = (none, cs) := by
  unfold scanSign
  split
  · simp at h
  · simp at h
  · rfl

theorem scanSign_chars {sign : Option Char} {cs : List Char} (hs : ∀ s ∈ sign, s = '+' ∨ s = '-')
    (h : ∀ c ∈ cs.head?, c ≠ '+' ∧ c ≠ '-') : scanSign (sign.toList ++ cs) = (sign, cs) := by
  cases sign with
  | none => exact scanSign_of_digits h
  | some s =>
    rcases hs s rfl with rfl | rfl
    · rfl
    · rfl

theorem scanExponent?_chars {e : Exponent} (h : e.Formed) {rest : List Char}
    (ends : ∀ c ∈ rest.head?, isDigit c = false) :
    scanExponent? (e.chars ++ rest) = some (e, rest) := by
  obtain ⟨mark, sign, digits⟩ := e
  have run : ∀ c ∈ (digits ++ rest).head?, c ≠ '+' ∧ c ≠ '-' := by
    intro c hc
    cases digits with
    | nil => exact absurd rfl h.nonempty
    | cons d ds =>
      have digit := h.digits c (by simp_all)
      exact ⟨ne_of_class digit (by decide), ne_of_class digit (by decide)⟩
  have nonempty : digits ≠ [] := h.nonempty
  have marked : (mark == 'e' || mark == 'E') = true := by simpa using h.mark
  rw [Exponent.chars, List.cons_append, List.append_assoc, scanExponent?, if_pos marked,
    scanSign_chars h.sign run]
  simp [takeWhile_run h.digits ends, dropWhile_run h.digits ends, nonempty]

theorem scanExponent?_of_ends {rest : List Char} (ends : NumeralEnds rest) :
    scanExponent? rest = none := by
  cases rest with
  | nil => rfl
  | cons c tail =>
    obtain ⟨_, _, lower, upper⟩ := ends c rfl
    simp [scanExponent?, lower, upper]

theorem scanMantissa?_chars {n : Numeral} (h : n.Formed) (plain : n.exponent = none)
    {rest : List Char} (digit : ∀ c ∈ rest.head?, isDigit c = false)
    (point : ∀ c ∈ rest.head?, c ≠ '.') :
    Numeral.scanMantissa? (n.chars ++ rest) = some (n, rest) := by
  obtain ⟨whole, fraction, exponent⟩ := n
  cases plain
  cases fraction with
  | none =>
    have nonempty : whole ≠ [] := by simpa using h.nonempty
    have chars : (Numeral.mk whole none none).chars ++ rest = whole ++ rest := by
      simp [Numeral.chars]
    rw [chars, Numeral.scanMantissa?, dropWhile_run h.whole digit, takeWhile_run h.whole digit]
    split
    · simp at point
    · simp [nonempty]
  | some ds =>
    have fraction := h.fraction ds rfl
    have chars : (Numeral.mk whole (some ds) none).chars ++ rest =
        whole ++ '.' :: (ds ++ rest) := by
      simp [Numeral.chars]
    have stop : ∀ c ∈ ('.' :: (ds ++ rest)).head?, isDigit c = false := by
      rintro c ⟨⟩
      decide
    have some : ¬ (whole.isEmpty && ds.isEmpty) = true := by simpa using h.nonempty
    rw [chars, Numeral.scanMantissa?, dropWhile_run h.whole stop, takeWhile_run h.whole stop]
    simp only [takeWhile_run fraction digit, dropWhile_run fraction digit, if_neg some]

/-- A numeral is found at the front of a text that it cannot go on into. -/
theorem scan?_chars {n : Numeral} (h : n.Formed) {rest : List Char} (ends : NumeralEnds rest) :
    Numeral.scan? (n.chars ++ rest) = some (n, rest) := by
  obtain ⟨whole, fraction, exponent⟩ := n
  have mantissa : (Numeral.mk whole fraction none).Formed :=
    ⟨h.whole, h.fraction, h.nonempty, by simp⟩
  rw [Numeral.chars_mk, List.append_assoc]
  cases exponent with
  | none =>
    have found := scanMantissa?_chars mantissa rfl (digits_end ends) fun c hc => (ends c hc).2.1
    simp [Numeral.scan?, found, scanExponent?_of_ends ends]
  | some e =>
    have exponent := h.exponent e rfl
    -- the mark ends the digits in front of it
    have mark : ∀ c ∈ (e.chars ++ rest).head?, isDigit c = false ∧ c ≠ '.' := by
      rintro c ⟨⟩
      rcases exponent.mark with mark | mark
      · rw [mark]
        decide
      · rw [mark]
        decide
    have found := scanMantissa?_chars mantissa rfl (fun c hc => (mark c hc).1)
      fun c hc => (mark c hc).2
    simp [Numeral.scan?, found, scanExponent?_chars exponent (digits_end ends)]

/-- A numeral begins with a digit or a point. -/
theorem head?_chars {n : Numeral} (h : n.Formed) (rest : List Char) :
    ∀ c ∈ (n.chars ++ rest).head?, isDigit c = true ∨ c = '.' := by
  obtain ⟨whole, fraction, exponent⟩ := n
  intro c hc
  cases whole with
  | cons d ds =>
    have : c = d := by simpa [Numeral.chars, eq_comm] using hc
    exact .inl (this ▸ h.whole d List.mem_cons_self)
  | nil =>
    cases fraction with
    | none => exact absurd rfl h.nonempty
    | some ds =>
      have : c = '.' := by simpa [Numeral.chars, eq_comm] using hc
      exact .inr this

/-- The sign of a negative number. -/
def minus (negative : Bool) : Option Char := if negative then some '-' else none

theorem toList_minus (negative : Bool) :
    (minus negative).toList = if negative then ['-'] else [] := by
  cases negative <;> rfl

theorem minus_isSign {negative : Bool} : ∀ s ∈ minus negative, s = '+' ∨ s = '-' := by
  cases negative <;> simp [minus]

/-- A numeral reads as its value, with or without a sign, and also in front of a line feed. -/
theorem readNumber?_of_formed {sign : Option Char} (signs : ∀ s ∈ sign, s = '+' ∨ s = '-')
    {n : Numeral} (h : n.Formed) {rest : List Char} (line : rest = [] ∨ rest = ['\n']) :
    readNumber? (sign.toList ++ (n.chars ++ rest)) =
      some (if sign = some '-' then -n.value else n.value) := by
  have ends : NumeralEnds rest := by
    rcases line with rfl | rfl
    · simp [NumeralEnds]
    · rintro c ⟨⟩
      decide
  have noSign : ∀ c ∈ (n.chars ++ rest).head?, c ≠ '+' ∧ c ≠ '-' := by
    intro c hc
    rcases head?_chars h rest c hc with digit | rfl
    · exact ⟨ne_of_class digit (by decide), ne_of_class digit (by decide)⟩
    · decide
  rw [readNumber?, scanSign_chars signs noSign]
  simp only [scan?_chars h ends, if_pos line]

/-- A number is a numeral with or without a sign, and nothing behind it but a line feed. -/
theorem formed_of_readNumber? {cs : List Char} {x : Float} (h : readNumber? cs = some x) :
    ∃ (sign : Option Char) (n : Numeral) (rest : List Char), (∀ s ∈ sign, s = '+' ∨ s = '-') ∧
      n.Formed ∧ (rest = [] ∨ rest = ['\n']) ∧ sign.toList ++ (n.chars ++ rest) = cs := by
  unfold readNumber? at h
  dsimp only at h
  split at h
  · rename_i n rest found
    split at h
    · rename_i line
      refine ⟨_, n, rest, sign_of_scanSign cs, formed_of_scan? found, line, ?_⟩
      rw [(Numeral.chars_append_of_scan? found).1, scanSign_append]
    · cases h
  · cases h

/-- A numeral with or without a minus sign reads as its value. -/
theorem readNumber?_chars {n : Numeral} (h : n.Formed) (negative : Bool) :
    readNumber? ((minus negative).toList ++ n.chars) =
      some (if negative then -n.value else n.value) := by
  have read : readNumber? ((minus negative).toList ++ (n.chars ++ [])) = _ :=
    readNumber?_of_formed minus_isSign h (.inl rfl)
  rw [List.append_nil] at read
  rw [read]
  cases negative <;> simp [minus]

/-- A numeral begins with a digit, or with a point and a digit. -/
theorem scan?_eq_none_iff {c : Char} {rest : List Char} :
    Numeral.scan? (c :: rest) = none ↔
      isDigit c = false ∧ (c = '.' → ∀ d ∈ rest.head?, isDigit d = false) := by
  have run : rest.takeWhile isDigit = [] ↔ ∀ d ∈ rest.head?, isDigit d = false := by
    cases rest with
    | nil => simp
    | cons d ds => by_cases digit : isDigit d = true <;> simp [digit]
  rw [Numeral.scan?, Option.map_eq_none_iff, Numeral.scanMantissa?]
  by_cases digit : isDigit c = true
  · simp only [digit, List.takeWhile_cons_of_pos, List.dropWhile_cons_of_pos, Bool.true_eq_false,
      false_and, iff_false]
    split <;> simp
  · rw [Bool.not_eq_true] at digit
    by_cases point : c = '.'
    · subst point
      simp [digit, run]
    · simp [digit, point]

/-! What is found in front of a character that no numeral has does not depend on what follows. -/

section Stopped

variable {c : Char} (digit : isDigit c = false)
include digit

theorem scanExponent?_stop (mark : c ≠ 'e' ∧ c ≠ 'E') (sign : c ≠ '+' ∧ c ≠ '-')
    (front rest : List Char) :
    scanExponent? (front ++ c :: rest) =
      (scanExponent? front).map fun found => (found.1, found.2 ++ c :: rest) := by
  cases front with
  | nil => simp [scanExponent?, mark]
  | cons d ds =>
    have signs : scanSign (ds ++ c :: rest) =
        ((scanSign ds).1, (scanSign ds).2 ++ c :: rest) := by
      cases ds with
      | nil => exact scanSign_of_digits (by simpa using sign)
      | cons s ds =>
        unfold scanSign
        split
        all_goals simp_all
    simp only [List.cons_append, scanExponent?, signs, takeWhile_stop digit, dropWhile_stop digit]
    split
    · split <;> rfl
    · rfl

/-- The mantissa ends before the character, or the character is a point that it takes. -/
theorem scanMantissa?_stop (front rest : List Char) :
    Numeral.scanMantissa? (front ++ c :: rest) =
        (Numeral.scanMantissa? front).map (fun found => (found.1, found.2 ++ c :: rest)) ∨
      ∀ n behind, Numeral.scanMantissa? (front ++ c :: rest) = some (n, behind) →
        behind.length ≤ rest.length := by
  unfold Numeral.scanMantissa?
  simp only [takeWhile_stop digit, dropWhile_stop digit]
  cases front.dropWhile isDigit with
  | nil =>
    by_cases point : c = '.'
    · right
      subst point
      intro n behind found
      simp only [List.nil_append] at found
      split at found
      · cases found
      · cases found
        exact (List.dropWhile_suffix _).length_le
    · left
      by_cases none : front.takeWhile isDigit = [] <;> simp [point, none]
  | cons d ds =>
    left
    by_cases point : d = '.'
    · subst point
      simp only [List.cons_append, takeWhile_stop digit, dropWhile_stop digit]
      split <;> rfl
    · by_cases none : front.takeWhile isDigit = [] <;> simp [point, none]

/-- A numeral that ends before the character is found without it. -/
theorem scan?_of_stop (mark : c ≠ 'e' ∧ c ≠ 'E') (sign : c ≠ '+' ∧ c ≠ '-')
    {front rest behind : List Char} {n : Numeral}
    (found : Numeral.scan? (front ++ c :: rest) = some (n, behind ++ c :: rest)) :
    Numeral.scan? front = some (n, behind) := by
  unfold Numeral.scan? at found ⊢
  obtain ⟨⟨m, tail⟩, mantissa, same⟩ := Option.map_eq_some_iff.mp found
  rcases scanMantissa?_stop digit front rest with before | taken
  · rw [before] at mantissa
    obtain ⟨⟨m', tail'⟩, inFront, split⟩ := Option.map_eq_some_iff.mp mantissa
    cases split
    rw [inFront]
    dsimp only at same
    rw [scanExponent?_stop digit mark sign] at same
    cases exponent : scanExponent? tail' with
    | none =>
      rw [exponent] at same
      obtain ⟨rfl, behind⟩ := Prod.mk.inj same
      rw [← List.append_cancel_right behind]
      simp [exponent]
    | some e =>
      rw [exponent] at same
      obtain ⟨rfl, behind⟩ := Prod.mk.inj same
      rw [← List.append_cancel_right behind]
      simp [exponent]
  · -- then the mantissa, and all the more the numeral, would have taken the character
    have short := taken m tail mantissa
    have long : (behind ++ c :: rest).length ≤ tail.length := by
      dsimp only at same
      cases exponent : scanExponent? tail with
      | none =>
        rw [exponent] at same
        exact Nat.le_of_eq (congrArg List.length (Prod.mk.inj same).2.symm)
      | some e =>
        have split : e.1.chars ++ e.2 = tail := chars_append_of_scanExponent? exponent
        rw [exponent] at same
        rw [← (Prod.mk.inj same).2, ← split, List.length_append]
        omega
    simp only [List.length_append, List.length_cons] at long
    omega

end Stopped

end FormulaSheet.Decimal
