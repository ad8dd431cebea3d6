import FormulaSheet.Proofs.Address.Column
import FormulaSheet.Proofs.Address.Label
import FormulaSheet.Proofs.Formula.Grammar
import FormulaSheet.Proofs.Formula.Tiling
/-!
The class of a token, decided twice. The lexer cuts a lexeme of some class out of a text; what is
kept is the token, and evaluation decides anew from its text whether it is a number, a label or an
operator. Both decide alike, but for references whose row begins with zero: these are labels to the
lexer alone.
-/

namespace FormulaSheet

open Text

/-- What evaluation takes a token for: a number, a label, an operator. -/
def Token.classes (t : Token) : Bool × Bool × Bool :=
  (isNumber t, Label.isLabel t, isOperator t)

namespace Lexeme

/-- Whether the row of a reference begins with zero. -/
def leadingZero (l : Lexeme) : Bool := (l.text.dropWhile isLetter).head? == some '0'

/-! Texts that begin like a word. -/

section WordStart

variable {t : Token} {c : Char} {cs : List Char} (text : t.toList = c :: cs)
  (start : isWordStart c = true)
include text start

theorem number?_of_wordStart : t.number? = none := by
  have digit : isDigit c = false := by
    rw [← Bool.not_eq_true]
    intro digit
    rw [isWordStart_of_isDigit digit] at start
    cases start
  have sign : ∀ d ∈ (c :: cs).head?, d ≠ '+' ∧ d ≠ '-' := by
    rintro d ⟨⟩
    exact ⟨ne_of_class start (by decide), ne_of_class start (by decide)⟩
  have point : c ≠ '.' := ne_of_class start (by decide)
  have none : Decimal.Numeral.scan? (c :: cs) = none :=
    Decimal.scan?_eq_none_iff.mpr ⟨digit, fun same => absurd same point⟩
  rw [Token.number?, text, Decimal.readNumber?, Decimal.scanSign_of_digits sign]
  dsimp only
  rw [none]

theorem notSymbol_of_wordStart : t ∉ Grammar.symbols := by
  intro mem
  have signs : ∀ t ∈ Grammar.symbols, t.toList.head?.any isWordStart = false := by
    decide +kernel
  have none := signs t mem
  rw [text, List.head?_cons, Option.any_some, start] at none
  cases none

end WordStart

/-! Labels are references in capitals. -/

theorem isReference_of_isLabel {t : Token} (h : Label.isLabel t = true) :
    ∃ cs, IsReference cs ∧ (t.toList = cs ∨ t.toList = cs ++ ['\n']) := by
  unfold Label.isLabel Label.split? at h
  dsimp only at h
  split at h
  · rename_i parts
    obtain ⟨least, most, nonempty, _, line⟩ := parts
    have letters : ∀ c ∈ t.toList.takeWhile Label.isCapital, isLetter c = true := fun c hc =>
      isLetter_of_isCapital (mem_takeWhile c hc)
    refine ⟨_, ⟨_, _, rfl, letters, ⟨least, most⟩, mem_takeWhile, nonempty⟩, ?_⟩
    have whole : t.toList = t.toList.takeWhile Label.isCapital ++
        (t.toList.dropWhile Label.isCapital).takeWhile isAsciiDigit ++
          (t.toList.dropWhile Label.isCapital).dropWhile isAsciiDigit := by
      rw [List.append_assoc, List.takeWhile_append_dropWhile, List.takeWhile_append_dropWhile]
    rcases line with line | line
    · rw [line, List.append_nil] at whole
      exact .inl whole
    · rw [line] at whole
      exact .inr whole
  · cases h

theorem head_letter_of_isLabel {t : Token} (h : Label.isLabel t = true) :
    ∀ c ∈ t.toList.head?, isLetter c = true := by
  obtain ⟨cs, reference, text⟩ := isReference_of_isLabel h
  intro c hc
  apply reference.head_letter
  rcases text with text | text
  · exact text ▸ hc
  · cases cs with
    | nil => exact absurd rfl (Formed.reference reference).nonempty
    | cons d ds =>
      rw [text] at hc
      exact hc

/-! One lemma for each class of lexeme. -/

/-- What reads as a number, with or without a sign, is nothing else. -/
theorem classes_of_number? {t : Token} {x : Float} (reads : t.number? = some x) :
    t.classes = (true, false, false) := by
  have label : Label.isLabel t = false := by
    rw [← Bool.not_eq_true]
    intro label
    have letter := head_letter_of_isLabel label
    cases text : t.toList with
    | nil =>
      rw [Token.number?, text] at reads
      cases reads
    | cons c cs =>
      rw [text] at letter
      have start : isWordStart c = true := by simp [isWordStart, letter c rfl]
      rw [number?_of_wordStart text start] at reads
      cases reads
  have operator : Token.isOperator t = false :=
    Grammar.isOperator_eq_false fun mem => Grammar.number_ne_symbol reads mem rfl
  rw [Token.classes, Token.isNumber, reads, label, operator]
  rfl

theorem classes_number {n : Decimal.Numeral} (h : n.Formed) :
    Token.classes (String.ofList n.chars) = (true, false, false) := by
  have reads : Token.number? (String.ofList n.chars) = some n.value := by
    rw [Token.number?, String.toList_ofList]
    exact Decimal.readNumber?_chars h false
  exact classes_of_number? reads

theorem classes_word {c : Char} {cs : List Char} (start : isWordStart c = true)
    (chars : ∀ d ∈ cs, isWordChar d = true) (apart : ¬ IsReference (c :: cs)) :
    Token.classes (String.ofList (c :: cs)) = (false, false, false) := by
  have text : (String.ofList (c :: cs)).toList = c :: cs := String.toList_ofList
  have label : Label.isLabel (String.ofList (c :: cs)) = false := by
    rw [← Bool.not_eq_true]
    intro label
    obtain ⟨ds, reference, same | same⟩ := isReference_of_isLabel label
    · exact apart ((text.symm.trans same).symm ▸ reference)
    · -- no line feed is part of a word
      have feed : '\n' ∈ c :: cs := by
        rw [← text, same]
        exact List.mem_append_right ds List.mem_cons_self
      rcases List.mem_cons.mp feed with rfl | feed
      · cases start
      · cases chars _ feed
  rw [Token.classes, Token.isNumber, number?_of_wordStart text start, label,
    Grammar.isOperator_eq_false (notSymbol_of_wordStart text start)]
  rfl

theorem classes_reference {cs : List Char} (h : IsReference cs) :
    Token.classes (String.ofList (cs.map Char.toUpper)) =
      (false, !leadingZero ⟨.reference, cs⟩, false) := by
  obtain ⟨column, row, rfl, letters, length, digits, nonempty⟩ := h
  have noLetter : ∀ c ∈ row.head?, isLetter c = false := by
    intro c hc
    exact isLetter_of_isAsciiDigit (digits c (List.mem_of_mem_head? hc))
  have same : row.map Char.toUpper = row := by
    refine (List.map_congr_left fun c hc => ?_).trans (List.map_id row)
    exact toUpper_of_isAsciiDigit (digits c hc)
  have parts : Label.Parts (String.ofList ((column ++ row).map Char.toUpper))
      (column.map Char.toUpper) row [] := by
    refine ⟨?_, ?_, digits, .inl rfl⟩
    · rw [String.toList_ofList, List.map_append, same, List.append_nil]
    · intro c hc
      obtain ⟨d, hd, rfl⟩ := List.mem_map.mp hc
      exact isCapital_toUpper (letters d hd)
  have leading : leadingZero ⟨.reference, column ++ row⟩ = (row.head? == some '0') := by
    rw [leadingZero, dropWhile_run letters noLetter]
  have label : Label.isLabel (String.ofList ((column ++ row).map Char.toUpper)) =
      !leadingZero ⟨.reference, column ++ row⟩ := by
    rw [Bool.eq_iff_iff, Label.isLabel_of_parts parts nonempty, leading, List.length_map]
    simp [length]
  cases column with
  | nil => cases length.1
  | cons c column =>
    have start : isWordStart c.toUpper = true := by
      simp [isWordStart, isLetter_toUpper (letters c List.mem_cons_self)]
    have text : (String.ofList ((c :: column ++ row).map Char.toUpper)).toList =
        c.toUpper :: (column ++ row).map Char.toUpper := String.toList_ofList
    rw [Token.classes, Token.isNumber, number?_of_wordStart text start, label,
      Grammar.isOperator_eq_false (notSymbol_of_wordStart text start)]
    rfl

theorem classes_operator {c : Char} (h : isOperatorChar c = true) :
    Token.classes (String.ofList [c]) = (false, false, true) := by
  rcases operatorChars h with rfl | rfl | rfl | rfl
  all_goals
    rw [Token.classes, Token.isNumber, Grammar.number?_symbol (by decide)]
    decide

theorem classes_parenthesis {c : Char} (h : isParenthesis c = true) :
    Token.classes (String.ofList [c]) = (false, false, false) := by
  rcases parentheses h with rfl | rfl
  all_goals
    rw [Token.classes, Token.isNumber, Grammar.number?_symbol (by decide)]
    decide

/-- Evaluation takes the token of a lexeme for what the lexer found. -/
theorem Formed.classes {l : Lexeme} (h : l.Formed) :
    Token.classes l.token =
      (l.kind == .number, l.kind == .reference && !l.leadingZero, l.kind == .operator) := by
  cases h with
  | reference letters => exact classes_reference letters
  | word start chars apart => exact classes_word start chars apart
  | number formed => exact classes_number formed
  | operator sign => exact classes_operator sign
  | parenthesis sign => exact classes_parenthesis sign

theorem Formed.kind_eq_parenthesis_iff {l : Lexeme} (h : l.Formed) (other : l.token ≠ "(") :
    l.kind = .parenthesis ↔ l.token = ")" := by
  constructor
  · intro kind
    cases h with
    | parenthesis sign =>
      rcases parentheses sign with rfl | rfl
      · exact absurd rfl other
      · rfl
    | reference letters => cases kind
    | word start chars apart => cases kind
    | number formed => cases kind
    | operator sign => cases kind
  · intro closing
    have text : l.shown.text = [')'] := by
      rw [← toList_token, closing]
      rfl
    exact h.shown.kind_of_parenthesis rfl text

end Lexeme

/-- The operand rule itself rejects the tokens that are neither labels nor numbers. -/
theorem operand_rejects_iff {env : Environment} {t : Token} {rest : List Token} :
    operand env (t :: rest) = .stop .invalidNumber [] ↔
      env.isLabel t = false ∧ Token.isNumber t = false := by
  rw [operand, Token.isNumber]
  cases env.isLabel t with
  | true => cases env.resolve t <;> simp
  | false => cases t.number? <;> simp

/-- Evaluation decides the class of each token of a text as the lexer did. Parentheses, words and
references to a row that begins with zero are nothing to it; all others are of exactly one class. So
where an operand is due, what is rejected out of hand are operators, closing parentheses, words and
such references; no word is taken for a label or a number. -/
theorem lexed_as_evaluated {text : String} {tokens : List Token}
    (readable : tokenize text = .ok tokens) :
    ∃ ls, Lexeme.scan .start (formulaBody text) = .ok ls ∧ tokens = ls.map Lexeme.token ∧
      ∀ l ∈ ls,
        (l.kind = .number ↔ Token.isNumber l.token = true) ∧
        (l.kind = .reference ∧ l.leadingZero = false ↔ Label.isLabel l.token = true) ∧
        (l.kind = .operator ↔ Token.isOperator l.token = true) ∧
        [Token.isNumber l.token, Label.isLabel l.token, Token.isOperator l.token].count true =
          (if l.kind = .parenthesis ∨ l.kind = .word ∨
            l.kind = .reference ∧ l.leadingZero = true then 0 else 1) ∧
        (l.token ≠ "(" → ∀ env : Environment, env.isLabel = Label.isLabel → ∀ rest,
          (operand env (l.token :: rest) = .stop .invalidNumber [] ↔
            l.kind = .operator ∨ l.token = ")" ∨ l.kind = .word ∨
              l.kind = .reference ∧ l.leadingZero = true)) ∧
        (l.kind = .word → Label.isLabel l.token = false ∧ l.token.number? = none) := by
  rw [tokenize] at readable
  cases scanned : Lexeme.scan .start (formulaBody text) with
  | error f =>
    rw [scanned] at readable
    cases readable
  | ok ls =>
    rw [scanned] at readable
    cases readable
    refine ⟨ls, rfl, rfl, ?_⟩
    intro l hl
    have formed := Lexeme.formed_of_scan scanned l hl
    have classes := formed.classes
    rw [Token.classes, Prod.mk.injEq, Prod.mk.injEq] at classes
    obtain ⟨number, label, operator⟩ := classes
    refine ⟨?_, ?_, ?_, ?_, ?_, ?_⟩
    · simp [number]
    · simp [label]
    · simp [operator]
    · rw [number, label, operator]
      cases l.kind <;> cases l.leadingZero <;> decide
    · intro other env same rest
      rw [operand_rejects_iff, same, number, label, ← formed.kind_eq_parenthesis_iff other]
      cases l.kind <;> cases l.leadingZero <;> decide
    · intro word
      rw [word] at number label
      refine ⟨label, ?_⟩
      rw [← Option.not_isSome_iff_eq_none, Bool.not_eq_true]
      exact number

/-- Numbers without gaps between them and in another script, words that go on where a label or a
number could end, and a row that begins with zero. -/
theorem lexed_as_evaluated_sample :
    tokenize " =1.5.5 1e5e*(a01-b2c)+b2/٣" =
        .ok ["1.5", ".5", "1e5", "e", "*", "(", "A01", "-", "b2c", ")", "+", "B2", "/", "٣"] ∧
      ∃ ls : List Lexeme,
        ["1.5", ".5", "1e5", "e", "*", "(", "A01", "-", "b2c", ")", "+", "B2", "/", "٣"] =
          ls.map Lexeme.token ∧
        ∀ l ∈ ls, (l.kind = .number ↔ Token.isNumber l.token = true) ∧
          (l.kind = .reference ∧ l.leadingZero = false ↔ Label.isLabel l.token = true) := by
  have readable : tokenize " =1.5.5 1e5e*(a01-b2c)+b2/٣" =
      .ok ["1.5", ".5", "1e5", "e", "*", "(", "A01", "-", "b2c", ")", "+", "B2", "/", "٣"] := by
    decide +kernel
  obtain ⟨ls, _, tokens, classes⟩ := lexed_as_evaluated readable
  exact ⟨readable, ls, tokens, fun l hl => ⟨(classes l hl).1, (classes l hl).2.1⟩⟩

end FormulaSheet
