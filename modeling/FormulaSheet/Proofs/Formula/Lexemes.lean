import FormulaSheet.Formula.Lexer
import FormulaSheet.Proofs.Address.Column
import FormulaSheet.Proofs.Decimal.Numeral
/-!
What lexemes look like. Whatever the lexer finds is formed as its class demands, and a formed lexeme
is found again at the front of any text that goes on with a space, a closing parenthesis or not at
all; an operator or a parenthesis in front of any text whatever. Capitals keep a lexeme formed.
-/

namespace FormulaSheet.Lexeme

open Text

/-- One to three letters and a row number, with nothing behind them. -/
def IsReference (cs : List Char) : Prop :=
  ∃ column row, cs = column ++ row ∧ (∀ c ∈ column, isLetter c = true) ∧
    (1 ≤ column.length ∧ column.length ≤ 3) ∧ (∀ c ∈ row, isAsciiDigit c = true) ∧ row ≠ []

inductive Formed : Lexeme → Prop
  | reference {cs : List Char} (letters : IsReference cs) : Formed ⟨.reference, cs⟩
  | word {c : Char} {cs : List Char} (start : isWordStart c = true)
      (chars : ∀ d ∈ cs, isWordChar d = true) (apart : ¬ IsReference (c :: cs)) :
      Formed ⟨.word, c :: cs⟩
  | number {n : Decimal.Numeral} (formed : n.Formed) : Formed ⟨.number, n.chars⟩
  | operator {c : Char} (sign : isOperatorChar c = true) : Formed ⟨.operator, [c]⟩
  | parenthesis {c : Char} (sign : isParenthesis c = true) : Formed ⟨.parenthesis, [c]⟩

/-! Characters of lexemes. -/

theorem isLetter_iff {c : Char} :
    isLetter c = true ↔ 0x41 ≤ c.toNat ∧ c.toNat ≤ 0x5A ∨ 0x61 ≤ c.toNat ∧ c.toNat ≤ 0x7A := by
  simp only [isLetter, Bool.or_eq_true, Bool.and_eq_true, decide_eq_true_eq]
  exact Iff.rfl

theorem isLetter_of_isAsciiDigit {c : Char} (h : isAsciiDigit c = true) : isLetter c = false := by
  have digit := isAsciiDigit_iff.mp h
  rw [← Bool.not_eq_true, isLetter_iff]
  omega

theorem isLetter_of_isDigit {c : Char} (h : isDigit c = true) : isLetter c = false := by
  have digit := toNat_of_isDigit h
  rw [← Bool.not_eq_true, isLetter_iff]
  omega

theorem isLetter_of_isCapital {c : Char} (h : Label.isCapital c = true) : isLetter c = true := by
  have range := Column.isCapital_iff.mp h
  rw [isLetter_iff]
  omega

theorem isWordChar_of_isLetter {c : Char} (h : isLetter c = true) : isWordChar c = true := by
  simp [isWordChar, h]

theorem isWordChar_of_isAsciiDigit {c : Char} (h : isAsciiDigit c = true) :
    isWordChar c = true := by
  simp [isWordChar, h]

theorem isWordChar_of_isWordStart {c : Char} (h : isWordStart c = true) : isWordChar c = true := by
  simp only [isWordStart, Bool.or_eq_true] at h
  rcases h with letter | line
  · exact isWordChar_of_isLetter letter
  · simp [isWordChar, line]

theorem isAsciiDigit_of_notWordChar {c : Char} (h : isWordChar c = false) :
    isAsciiDigit c = false := by
  simp only [isWordChar, Bool.or_eq_false_iff] at h
  exact h.1.2

/-! References. -/

theorem IsReference.wordChars {cs : List Char} (h : IsReference cs) :
    ∀ c ∈ cs, isWordChar c = true := by
  obtain ⟨column, row, rfl, letters, _, digits, _⟩ := h
  intro c hc
  rcases List.mem_append.mp hc with hc | hc
  · exact isWordChar_of_isLetter (letters c hc)
  · exact isWordChar_of_isAsciiDigit (digits c hc)

theorem IsReference.head_letter {cs : List Char} (h : IsReference cs) :
    ∀ c ∈ cs.head?, isLetter c = true := by
  obtain ⟨column, row, rfl, letters, ⟨least, _⟩, _⟩ := h
  intro c hc
  cases column with
  | nil => cases least
  | cons d ds =>
    cases hc
    exact letters _ List.mem_cons_self

theorem reference?_of_isReference {cs rest : List Char} (h : IsReference cs)
    (boundary : ∀ c ∈ rest.head?, isWordChar c = false) :
    reference? (cs ++ rest) = some (⟨.reference, cs⟩, rest) := by
  obtain ⟨column, row, rfl, letters, length, digits, nonempty⟩ := h
  have noLetter : ∀ c ∈ (row ++ rest).head?, isLetter c = false := by
    intro c hc
    cases row with
    | nil => exact absurd rfl nonempty
    | cons d ds => exact isLetter_of_isAsciiDigit (digits c (by simp_all))
  have noDigit : ∀ c ∈ rest.head?, isAsciiDigit c = false := fun c hc =>
    isAsciiDigit_of_notWordChar (boundary c hc)
  have noMore : ¬ rest.head?.any isWordChar = true := by
    cases rest with
    | nil => simp
    | cons c tail => simpa using boundary c rfl
  rw [List.append_assoc, reference?, takeWhile_run letters noLetter, dropWhile_run letters noLetter]
  simp only [takeWhile_run digits noDigit, dropWhile_run digits noDigit]
  rw [if_pos ⟨length.1, length.2, nonempty, noMore⟩]

theorem isReference_of_reference? {cs rest : List Char} {l : Lexeme}
    (h : reference? cs = some (l, rest)) :
    l.kind = .reference ∧ IsReference l.text ∧ l.text ++ rest = cs ∧
      ∀ c ∈ rest.head?, isWordChar c = false := by
  unfold reference? at h
  dsimp only at h
  split at h
  · rename_i found
    obtain ⟨least, most, nonempty, boundary⟩ := found
    cases h
    refine ⟨rfl, ⟨_, _, rfl, mem_takeWhile, ⟨least, most⟩, mem_takeWhile, nonempty⟩, ?_, ?_⟩
    · simp
    · intro c hc
      rw [Option.mem_def.mp hc] at boundary
      simpa using boundary
  · cases h

/-- A text without a reference at its front has none when other word characters end it. -/
theorem reference?_of_word {word rest : List Char} (chars : ∀ c ∈ word, isWordChar c = true)
    (apart : ¬ IsReference word) (boundary : ∀ c ∈ rest.head?, isWordChar c = false) :
    reference? (word ++ rest) = none := by
  cases h : reference? (word ++ rest) with
  | none => rfl
  | some found =>
    obtain ⟨l, behind⟩ := found
    obtain ⟨_, reference, whole, end'⟩ := isReference_of_reference? h
    -- both are the longest run of word characters
    have same : l.text = word := by
      rw [← takeWhile_run chars boundary, ← whole, takeWhile_run reference.wordChars end']
    exact absurd (same ▸ reference) apart

theorem reference?_of_noLetter {cs : List Char} (h : ∀ c ∈ cs.head?, isLetter c = false) :
    reference? cs = none := by
  have column : cs.takeWhile isLetter = [] := by
    cases cs with
    | nil => rfl
    | cons c tail => simp [h c rfl]
  simp [reference?, column]

theorem word?_of_noStart {cs : List Char} (h : ∀ c ∈ cs.head?, isWordStart c = false) :
    word? cs = none := by
  cases cs with
  | nil => rfl
  | cons c tail => simp [word?, h c rfl]

theorem isWordStart_of_isDigit {c : Char} (h : isDigit c = true) : isWordStart c = false := by
  have line : (c == '_') = false := beq_false_of_ne (ne_of_class h (by decide))
  rw [isWordStart, isLetter_of_isDigit h, line]
  rfl

/-! What is found is formed. -/

theorem formed_of_next? {cs rest : List Char} {l : Lexeme} (h : next? cs = some (l, rest)) :
    l.Formed := by
  simp only [next?, Option.or_eq_some_iff] at h
  rcases h with reference | ⟨none, word | ⟨-, number | ⟨-, sign⟩⟩⟩
  · obtain ⟨kind, text, _, _⟩ := isReference_of_reference? reference
    obtain ⟨k, t⟩ := l
    cases kind
    exact .reference text
  · unfold word? at word
    split at word
    · cases word
    · rename_i c tail
      split at word
      · rename_i start
        cases word
        refine .word start mem_takeWhile ?_
        intro reference
        have split : c :: tail = (c :: tail.takeWhile isWordChar) ++ tail.dropWhile isWordChar := by
          simp
        rw [split, reference?_of_isReference reference head?_dropWhile] at none
        cases none
      · cases word
  · obtain ⟨⟨n, tail⟩, found, same⟩ := Option.map_eq_some_iff.mp number
    cases same
    exact .number (Decimal.formed_of_scan? found)
  · unfold sign? at sign
    split at sign
    · cases sign
    · split at sign
      · rename_i operator
        cases sign
        exact .operator operator
      · split at sign
        · rename_i parenthesis
          cases sign
          exact .parenthesis parenthesis
        · cases sign

/-! What is formed is found. -/

/-- A text that begins with a space or a closing parenthesis, or is empty. -/
def Stopped (rest : List Char) : Prop := ∀ c ∈ rest.head?, c = ' ' ∨ c = ')'

theorem Stopped.notWordChar {rest : List Char} (h : Stopped rest) :
    ∀ c ∈ rest.head?, isWordChar c = false := by
  intro c hc
  rcases h c hc with rfl | rfl
  · decide
  · decide

theorem Stopped.numeralEnds {rest : List Char} (h : Stopped rest) : Decimal.NumeralEnds rest := by
  intro c hc
  rcases h c hc with rfl | rfl
  · decide
  · decide

def isSign (l : Lexeme) : Prop := l.kind = .operator ∨ l.kind = .parenthesis

theorem next?_of_number {n : Decimal.Numeral} (h : n.Formed) {rest : List Char}
    (ends : Decimal.NumeralEnds rest) :
    next? (n.chars ++ rest) = some (⟨.number, n.chars⟩, rest) := by
  have start : ∀ c ∈ (n.chars ++ rest).head?, isWordStart c = false := by
    intro c hc
    rcases Decimal.head?_chars h rest c hc with digit | rfl
    · exact isWordStart_of_isDigit digit
    · decide
  have letter : ∀ c ∈ (n.chars ++ rest).head?, isLetter c = false := by
    intro c hc
    exact (Bool.or_eq_false_iff.mp (start c hc)).1
  rw [next?, reference?_of_noLetter letter, word?_of_noStart start, number?,
    Decimal.scan?_chars h ends]
  rfl

theorem operatorChars {c : Char} (h : isOperatorChar c = true) :
    c = '+' ∨ c = '-' ∨ c = '*' ∨ c = '/' := by
  simpa [isOperatorChar, or_assoc] using h

theorem parentheses {c : Char} (h : isParenthesis c = true) : c = '(' ∨ c = ')' := by
  simpa [isParenthesis] using h

theorem next?_of_sign {c : Char} {l : Lexeme} {rest : List Char}
    (h : c ∈ ['+', '-', '*', '/', '(', ')']) (found : sign? (c :: rest) = some (l, rest)) :
    next? (c :: rest) = some (l, rest) := by
  have plain : isLetter c = false ∧ isWordStart c = false ∧ isDigit c = false ∧ c ≠ '.' := by
    simp only [List.mem_cons, List.not_mem_nil, or_false] at h
    rcases h with rfl | rfl | rfl | rfl | rfl | rfl <;> decide
  obtain ⟨letter, start, digit, point⟩ := plain
  have number : number? (c :: rest) = none := by
    have mantissa : Decimal.Numeral.scanMantissa? (c :: rest) = none := by
      simp [Decimal.Numeral.scanMantissa?, digit, point]
    simp [number?, Decimal.Numeral.scan?, mantissa]
  rw [next?, reference?_of_noLetter (by simpa using letter),
    word?_of_noStart (by simpa using start), number, found]
  rfl

/-- A formed lexeme is found in front of what cannot belong to it. -/
theorem next?_of_formed {l : Lexeme} (h : l.Formed) {rest : List Char}
    (stop : isSign l ∨ Stopped rest) : next? (l.text ++ rest) = some (l, rest) := by
  cases h with
  | reference letters =>
    have stopped : Stopped rest := by simpa [isSign] using stop
    rw [next?, reference?_of_isReference letters stopped.notWordChar]
    rfl
  | @word c cs start chars apart =>
    have stopped : Stopped rest := by simpa [isSign] using stop
    have all : ∀ d ∈ c :: cs, isWordChar d = true := by
      intro d hd
      rcases List.mem_cons.mp hd with rfl | hd
      · exact isWordChar_of_isWordStart start
      · exact chars d hd
    have none := reference?_of_word all apart stopped.notWordChar
    rw [next?, none]
    simp [word?, start, takeWhile_run chars stopped.notWordChar,
      dropWhile_run chars stopped.notWordChar]
  | number formed =>
    have stopped : Stopped rest := by simpa [isSign] using stop
    exact next?_of_number formed stopped.numeralEnds
  | operator sign =>
    apply next?_of_sign
    · rcases operatorChars sign with rfl | rfl | rfl | rfl <;> decide
    · simp [sign?, sign]
  | parenthesis sign =>
    apply next?_of_sign
    · rcases parentheses sign with rfl | rfl <;> decide
    · rcases parentheses sign with rfl | rfl <;> rfl

/-! Capitals. -/

/-- The lexeme as its token shows it. -/
def shown (l : Lexeme) : Lexeme :=
  ⟨l.kind, if l.kind = .reference then l.text.map Char.toUpper else l.text⟩

theorem token_eq (l : Lexeme) : l.token = String.ofList l.shown.text := rfl

theorem toList_token (l : Lexeme) : l.token.toList = l.shown.text := by
  rw [token_eq, String.toList_ofList]

theorem toNat_toUpper (c : Char) :
    c.toUpper.toNat = if 0x61 ≤ c.toNat ∧ c.toNat ≤ 0x7A then c.toNat - 32 else c.toNat := by
  have small : 'a'.val ≤ c.val ∧ c.val ≤ 'z'.val ↔ 0x61 ≤ c.toNat ∧ c.toNat ≤ 0x7A := Iff.rfl
  unfold Char.toUpper
  split
  · rename_i h
    have range := small.mp h
    have shift : ('A'.val - 'a'.val).toNat = 2 ^ 32 - 32 := by decide
    rw [if_pos range]
    change (c.val + ('A'.val - 'a'.val)).toNat = _
    rw [UInt32.toNat_add, shift]
    change (c.toNat + _) % _ = _
    omega
  · rename_i h
    rw [if_neg (fun range => h (small.mpr range))]

theorem isLetter_toUpper {c : Char} (h : isLetter c = true) : isLetter c.toUpper = true := by
  have range := isLetter_iff.mp h
  rw [isLetter_iff, toNat_toUpper]
  split <;> omega

theorem isCapital_toUpper {c : Char} (h : isLetter c = true) :
    Label.isCapital c.toUpper = true := by
  have range := isLetter_iff.mp h
  rw [Column.isCapital_iff, toNat_toUpper]
  split <;> omega

theorem toUpper_of_isAsciiDigit {c : Char} (h : isAsciiDigit c = true) : c.toUpper = c := by
  have range := isAsciiDigit_iff.mp h
  apply Char.toNat_inj.mp
  rw [toNat_toUpper, if_neg (by omega)]

theorem toUpper_toUpper (c : Char) : c.toUpper.toUpper = c.toUpper := by
  apply Char.toNat_inj.mp
  have once := toNat_toUpper c
  rw [toNat_toUpper c.toUpper]
  split at once <;> rw [if_neg (by omega)]

theorem IsReference.toUpper {cs : List Char} (h : IsReference cs) :
    IsReference (cs.map Char.toUpper) := by
  obtain ⟨column, row, rfl, letters, length, digits, nonempty⟩ := h
  have same : row.map Char.toUpper = row := by
    refine (List.map_congr_left fun c hc => ?_).trans (List.map_id row)
    exact toUpper_of_isAsciiDigit (digits c hc)
  refine ⟨column.map Char.toUpper, row, by rw [List.map_append, same], ?_, by simpa using length,
    digits, nonempty⟩
  intro c hc
  obtain ⟨d, hd, rfl⟩ := List.mem_map.mp hc
  exact isLetter_toUpper (letters d hd)

theorem Formed.shown {l : Lexeme} (h : l.Formed) : l.shown.Formed := by
  cases h with
  | reference letters => exact .reference letters.toUpper
  | word start chars apart => exact .word start chars apart
  | number formed => exact .number formed
  | operator sign => exact .operator sign
  | parenthesis sign => exact .parenthesis sign

theorem shown_shown (l : Lexeme) : l.shown.shown = l.shown := by
  obtain ⟨kind, text⟩ := l
  have twice : Char.toUpper ∘ Char.toUpper = Char.toUpper := funext toUpper_toUpper
  cases kind <;> simp [Lexeme.shown, twice]

theorem token_shown (l : Lexeme) : l.shown.token = l.token := by
  rw [token_eq, token_eq, shown_shown]

theorem Formed.kind_of_parenthesis {l : Lexeme} (h : l.Formed) {c : Char}
    (sign : isParenthesis c = true) (text : l.text = [c]) : l.kind = .parenthesis := by
  cases h with
  | reference letters =>
    have char := letters.wordChars c (by simp only at text; simp [text])
    rcases parentheses sign with rfl | rfl <;> cases char
  | word start chars apart =>
    obtain ⟨rfl, _⟩ := List.cons.inj text
    rcases parentheses sign with rfl | rfl <;> cases start
  | @number n formed =>
    have first := Decimal.head?_chars formed [] c (by simp only at text; simp [text])
    rcases parentheses sign with rfl | rfl <;> exact absurd first (by decide)
  | operator operator =>
    obtain ⟨rfl, _⟩ := List.cons.inj text
    rcases parentheses sign with rfl | rfl <;> cases operator
  | parenthesis sign => rfl

/-! No lexeme has a blank or an equals sign. -/

def IsPlain (c : Char) : Prop := isBlank c = false ∧ c ≠ '='

instance (c : Char) : Decidable (IsPlain c) := inferInstanceAs (Decidable (_ ∧ _))

theorem plain_of_isWordChar {c : Char} (h : isWordChar c = true) : IsPlain c := by
  refine ⟨?_, ne_of_class h (by decide)⟩
  simp only [isWordChar, Bool.or_eq_true, beq_iff_eq] at h
  rcases h with (letter | digit) | rfl
  · have := isLetter_iff.mp letter
    exact isBlank_of_visible (by omega) (by omega)
  · exact isBlank_of_isDigit (isDigit_of_isAsciiDigit digit)
  · decide

theorem plain_of_isDigit {c : Char} (h : isDigit c = true) : IsPlain c :=
  ⟨isBlank_of_isDigit h, ne_of_class h (by decide)⟩

theorem plain_of_exponent {e : Decimal.Exponent} (h : e.Formed) : ∀ c ∈ e.chars, IsPlain c := by
  obtain ⟨mark, sign, digits⟩ := e
  intro c hc
  simp only [Decimal.Exponent.chars, List.mem_cons, List.mem_append, Option.mem_toList] at hc
  rcases hc with rfl | hc | hc
  · rcases h.mark with mark | mark
    · simp only at mark
      rw [mark]
      decide
    · simp only at mark
      rw [mark]
      decide
  · rcases h.sign c hc with rfl | rfl
    · decide
    · decide
  · exact plain_of_isDigit (h.digits c hc)

theorem plain_of_numeral {n : Decimal.Numeral} (h : n.Formed) : ∀ c ∈ n.chars, IsPlain c := by
  obtain ⟨whole, fraction, exponent⟩ := n
  intro c hc
  simp only [Decimal.Numeral.chars, List.mem_append] at hc
  rcases hc with (hc | hc) | hc
  · exact plain_of_isDigit (h.whole c hc)
  · cases fraction with
    | none => cases hc
    | some ds =>
      rcases List.mem_cons.mp hc with rfl | hc
      · decide
      · exact plain_of_isDigit (h.fraction ds rfl c hc)
  · cases exponent with
    | none => cases hc
    | some e => exact plain_of_exponent (h.exponent e rfl) c hc

theorem Formed.nonempty {l : Lexeme} (h : l.Formed) : l.text ≠ [] := by
  cases h with
  | reference letters =>
    obtain ⟨column, row, rfl, _, _, _, nonempty⟩ := letters
    simp [nonempty]
  | word start chars apart => simp
  | @number n formed =>
    intro empty
    have ends : Decimal.NumeralEnds [] := by simp [Decimal.NumeralEnds]
    have none := Decimal.scan?_chars formed ends
    simp only at empty
    rw [empty] at none
    cases none
  | operator sign => simp
  | parenthesis sign => simp

theorem Formed.plain {l : Lexeme} (h : l.Formed) : ∀ c ∈ l.text, IsPlain c := by
  cases h with
  | reference letters => exact fun c hc => plain_of_isWordChar (letters.wordChars c hc)
  | word start chars apart =>
    intro c hc
    rcases List.mem_cons.mp hc with rfl | hc
    · exact plain_of_isWordChar (isWordChar_of_isWordStart start)
    · exact plain_of_isWordChar (chars c hc)
  | number formed => exact plain_of_numeral formed
  | operator sign =>
    intro c hc
    rw [List.mem_singleton.mp hc]
    rcases operatorChars sign with rfl | rfl | rfl | rfl <;> decide
  | parenthesis sign =>
    intro c hc
    rw [List.mem_singleton.mp hc]
    rcases parentheses sign with rfl | rfl <;> decide

end FormulaSheet.Lexeme
