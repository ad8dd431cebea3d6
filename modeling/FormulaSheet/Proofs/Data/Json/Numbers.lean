import FormulaSheet.Data.Json.Reader
import FormulaSheet.Data.Json.Writer
import FormulaSheet.Proofs.Data.Json.Strings
import FormulaSheet.Proofs.Decimal.Shortest
/-!
Numbers in JSON. Whole numbers read back as what they are. The text of a finite number is a numeral
with a fraction or an exponent, so it is read as a number, and as the same one that reading the
numeral by itself gives.
-/

namespace FormulaSheet.Json

open Text Decimal

theorem isAsciiDigit_of_ends {rest : List Char} (ends : NumeralEnds rest) :
    ∀ c ∈ rest.head?, isAsciiDigit c = false := by
  intro c hc
  rw [← Bool.not_eq_true]
  intro digit
  have other := (ends c hc).1
  rw [isDigit_of_isAsciiDigit digit] at other
  cases other

/-! Parts of numbers. -/

theorem readWhole?_chars {ds rest : List Char} (ascii : ∀ c ∈ ds, isAsciiDigit c = true)
    (lead : ds = ['0'] ∨ ds ≠ [] ∧ ds.head? ≠ some '0')
    (boundary : ∀ c ∈ rest.head?, isAsciiDigit c = false) :
    readWhole? (ds ++ rest) = some (ds, rest) := by
  rcases lead with rfl | ⟨nonempty, lead⟩
  · rfl
  · unfold readWhole?
    split
    · rename_i zero
      rw [← List.head?_append_of_ne_nil _ nonempty, zero] at lead
      exact absurd rfl lead
    · simp [takeWhile_run ascii boundary, dropWhile_run ascii boundary, nonempty]

theorem readFraction?_chars {ds rest : List Char} (ascii : ∀ c ∈ ds, isAsciiDigit c = true)
    (nonempty : ds ≠ []) (boundary : ∀ c ∈ rest.head?, isAsciiDigit c = false) :
    readFraction? ('.' :: (ds ++ rest)) = some (ds, rest) := by
  simp [readFraction?, takeWhile_run ascii boundary, dropWhile_run ascii boundary, nonempty]

theorem readFraction?_of_noPoint {rest : List Char} (h : ∀ c ∈ rest.head?, c ≠ '.') :
    readFraction? rest = none := by
  unfold readFraction?
  split
  · simp at h
  · rfl

theorem readExponent?_chars {e : Exponent} {rest : List Char} (mark : e.mark = 'e')
    (sign : e.sign = some '+' ∨ e.sign = some '-') (nonempty : e.digits ≠ [])
    (ascii : ∀ c ∈ e.digits, isAsciiDigit c = true)
    (boundary : ∀ c ∈ rest.head?, isAsciiDigit c = false) :
    readExponent? (e.chars ++ rest) = some (e.value, rest) := by
  have marked : (e.mark == 'e' || e.mark == 'E') = true := by
    rw [mark]
    rfl
  rw [Exponent.chars, List.cons_append, readExponent?, if_pos marked]
  rcases sign with sign | sign
  · simp [sign, scanSign, takeWhile_run ascii boundary, dropWhile_run ascii boundary, nonempty,
      Exponent.value]
  · simp [sign, scanSign, takeWhile_run ascii boundary, dropWhile_run ascii boundary, nonempty,
      Exponent.value]

theorem readExponent?_of_ends {rest : List Char} (ends : NumeralEnds rest) :
    readExponent? rest = none := by
  cases rest with
  | nil => rfl
  | cons c tail =>
    obtain ⟨_, _, lower, upper⟩ := ends c rfl
    simp [readExponent?, lower, upper]

/-! Numbers without a sign. -/

theorem readUnsigned_digits (negative : Bool) (n : Nat) {rest : List Char}
    (ends : NumeralEnds rest) :
    readUnsigned negative (digits n ++ rest) =
      some (.whole (if negative then -(n : Int) else n), rest) := by
  have lead : digits n = ['0'] ∨ digits n ≠ [] ∧ (digits n).head? ≠ some '0' := by
    by_cases zero : n = 0
    · subst zero
      exact .inl (by decide +kernel)
    · exact .inr ⟨digits_ne_nil n, head?_digits zero⟩
  have whole := readWhole?_chars (isAsciiDigit_digits n) lead (isAsciiDigit_of_ends ends)
  simp [readUnsigned, whole, readFraction?_of_noPoint fun c hc => (ends c hc).2.1,
    readExponent?_of_ends ends, digitsValue_digits]

theorem readUnsigned_chars (negative : Bool) {n : Numeral} (h : n.Written) {rest : List Char}
    (ends : NumeralEnds rest) :
    readUnsigned negative (n.chars ++ rest) =
      some (.number (if negative then -n.value else n.value), rest) := by
  obtain ⟨whole, fraction, exponent⟩ := n
  have lead := h.lead
  have digits := h.whole
  have boundary := isAsciiDigit_of_ends ends
  have marked : ∀ e, exponent = some e →
      (∀ c ∈ (e.chars ++ rest).head?, isAsciiDigit c = false ∧ c ≠ '.') ∧
        readExponent? (e.chars ++ rest) = some (e.value, rest) := by
    intro e he
    obtain ⟨mark, sign, nonempty, ascii⟩ := h.exponent e he
    refine ⟨?_, readExponent?_chars mark sign nonempty ascii boundary⟩
    rintro c ⟨⟩
    rw [mark]
    decide
  cases fraction with
  | none =>
    cases exponent with
    | none => exact absurd h.pointed (by simp)
    | some e =>
      obtain ⟨apart, reads⟩ := marked e rfl
      have first := readWhole?_chars digits lead fun c hc => (apart c hc).1
      have noFraction := readFraction?_of_noPoint fun c hc => (apart c hc).2
      simp [readUnsigned, Numeral.chars, first, noFraction, reads, Numeral.value]
  | some ds =>
    obtain ⟨nonempty, ascii⟩ := h.fraction ds rfl
    have point : ∀ tail : List Char, ∀ c ∈ ('.' :: tail).head?, isAsciiDigit c = false := by
      rintro tail c ⟨⟩
      decide
    cases exponent with
    | none =>
      have first := readWhole?_chars digits lead (point (ds ++ rest))
      have second := readFraction?_chars ascii nonempty boundary
      simp [readUnsigned, Numeral.chars, first, second, readExponent?_of_ends ends, Numeral.value]
    | some e =>
      obtain ⟨apart, reads⟩ := marked e rfl
      have first := readWhole?_chars digits lead (point (ds ++ (e.chars ++ rest)))
      have second := readFraction?_chars ascii nonempty fun c hc => (apart c hc).1
      simp [readUnsigned, Numeral.chars, first, second, reads, Numeral.value]

/-! Numbers. -/

theorem readNumber_sign (negative : Bool) {cs : List Char} (h : ∀ c ∈ cs.head?, c ≠ '-') :
    readNumber ((if negative then ['-'] else []) ++ cs) = readUnsigned negative cs := by
  cases negative with
  | true => rfl
  | false =>
    rw [if_neg (by decide), List.nil_append]
    unfold readNumber
    split
    · simp at h
    · rfl

theorem readNumber_signedDigits (i : Int) {rest : List Char} (ends : NumeralEnds rest) :
    readNumber (signedDigits i ++ rest) = some (.whole i, rest) := by
  have noSign : ∀ c ∈ (digits i.natAbs ++ rest).head?, c ≠ '-' := by
    intro c hc
    rw [List.head?_append_of_ne_nil _ (digits_ne_nil _)] at hc
    exact ne_of_class (isAsciiDigit_digits _ c (List.mem_of_mem_head? hc)) (by decide)
  have chars : signedDigits i ++ rest =
      (if decide (i < 0) then ['-'] else []) ++ (digits i.natAbs ++ rest) := by
    by_cases negative : i < 0
    · simp [signedDigits, negative]
    · simp [signedDigits, negative]
  have value : (if decide (i < 0) then -(i.natAbs : Int) else i.natAbs) = i := by
    by_cases negative : i < 0
    · simp only [negative, decide_true, if_true]
      omega
    · simp only [negative, decide_false, Bool.false_eq_true, if_false]
      omega
  rw [chars, readNumber_sign _ noSign, readUnsigned_digits _ _ ends, value]

/-- The text of a number reads as that number. -/
def Reads (x : Float) : Prop := readNumber? (shortest x).toList = some x

/-- The number that the text of a number reads as. -/
def rereadNumber (x : Float) : Float := (readNumber? (shortest x).toList).getD x

theorem Reads.rereadNumber {x : Float} (h : Reads x) : rereadNumber x = x := by
  rw [Json.rereadNumber, h, Option.getD_some]

theorem readNumber_shortest {x : Float} (defined : x.isNaN = false) (finite : x.isInf = false)
    {rest : List Char} (ends : NumeralEnds rest) :
    readNumber ((shortest x).toList ++ rest) = some (.number (rereadNumber x), rest) := by
  obtain ⟨n, written, text⟩ := shortest_written defined finite
  obtain ⟨d, tail, chars, digit⟩ := written.exists_digit
  have value : (if isNegative x then -n.value else n.value) = rereadNumber x := by
    rw [rereadNumber, text, ← toList_minus, readNumber?_chars written.formed, Option.getD_some]
  have noSign : ∀ c ∈ (n.chars ++ rest).head?, c ≠ '-' := by
    intro c hc
    rw [chars] at hc
    cases hc
    exact ne_of_class digit (by decide)
  rw [text, List.append_assoc, readNumber_sign _ noSign, readUnsigned_chars _ written ends, value]

end FormulaSheet.Json
