import FormulaSheet.Proofs.Formula.Display
import FormulaSheet.Proofs.Sheet.Literals
/-!
Two spellings of a number. A number that a table gives is one token, with its sign; the same text
given as a formula, or entered again from the display of the cell, is cut into lexemes first. A
numeral is one lexeme, so without a minus sign the spellings agree. A minus sign is an operator with
nothing in front of it, and formulas have no such operators.
-/

namespace FormulaSheet

open Text

/-! Numerals as formula texts. -/

theorem formulaBody_of_plain {text : String} (plain : ∀ c ∈ text.toList, Lexeme.IsPlain c) :
    formulaBody text = text.toList :=
  Lexeme.formulaBody_of_ends (fun c hc => plain c (List.mem_of_mem_head? hc)) fun c hc =>
    plain c (List.mem_of_getLast? hc)

theorem number?_numeral {n : Decimal.Numeral} (h : n.Formed) :
    Token.number? (String.ofList n.chars) = some n.value := by
  rw [Token.number?, String.toList_ofList]
  exact Decimal.readNumber?_chars h false

theorem scan_chars {n : Decimal.Numeral} (h : n.Formed) (p : Place) :
    Lexeme.scan p n.chars = .ok [⟨.number, n.chars⟩] := by
  have stop : Lexeme.Stopped [] := by simp [Lexeme.Stopped]
  have scanned := Lexeme.scan_formed (.number h) (.inr stop) p
  rw [List.append_nil] at scanned
  rw [scanned, Lexeme.scan]
  rfl

theorem scan_minus_chars {n : Decimal.Numeral} (h : n.Formed) (p : Place) :
    Lexeme.scan p ('-' :: n.chars) = .ok [⟨.operator, ['-']⟩, ⟨.number, n.chars⟩] := by
  have operator : Lexeme.Formed ⟨.operator, ['-']⟩ := .operator (by decide)
  have scanned : Lexeme.scan p (['-'] ++ n.chars) = _ :=
    Lexeme.scan_formed operator (.inl (.inl rfl)) p
  rw [List.singleton_append, scan_chars h] at scanned
  exact scanned

/-- A number is read as one token, its minus sign as another. -/
theorem Literal.tokenize_text {l : Literal} (finite : l.isFinite = true) :
    ∃ n : Decimal.Numeral, n.Formed ∧
      tokenize l.text = .ok (if l.isNegative then ["-", String.ofList n.chars] else [l.text]) := by
  obtain ⟨n, formed, chars⟩ := spelled finite
  refine ⟨n, formed, ?_⟩
  have numeral := Lexeme.plain_of_numeral formed
  cases negative : l.isNegative with
  | true =>
    rw [negative] at chars
    change l.text.toList = '-' :: n.chars at chars
    have plain : ∀ c ∈ l.text.toList, Lexeme.IsPlain c := by
      rw [chars]
      exact List.forall_mem_cons.mpr ⟨by decide, numeral⟩
    rw [tokenize, formulaBody_of_plain plain, chars, scan_minus_chars formed]
    rfl
  | false =>
    rw [negative] at chars
    change l.text.toList = n.chars at chars
    have plain : ∀ c ∈ l.text.toList, Lexeme.IsPlain c := chars ▸ numeral
    have token : String.ofList n.chars = l.text := by rw [← chars, String.ofList_toList]
    rw [tokenize, formulaBody_of_plain plain, chars, scan_chars formed]
    exact congrArg (fun t => Except.ok [t]) token

theorem displayFormula_singleton (t : Token) : displayFormula [t] = t := by
  simp [displayFormula, displayFormula.go]

/-- An operator in front gives a formula no value. -/
theorem outcome_evaluate_minus {env : Environment} (labels : env.isLabel = Label.isLabel)
    {t : Token} (operand : Token.isOperator t = false) :
    (evaluate env ["-", t]).outcome = ⟨0.0, some .invalidNumber⟩ := by
  have minus : env.isLabel "-" = false := by
    rw [labels]
    decide
  -- the token is no operator, so nothing is cut off at the end and the reading begins at the sign
  have body : withoutTrailing ["-", t] = ["-", t] := by
    have whole := withoutTrailing_append_singleton ["-"] t
    rwa [operand] at whole
  rw [outcome_evaluate env (List.cons_ne_nil _ _), body, Reader.read_cons,
    Reader.step_due_of_error (by decide) (Reader.operandValue_of_plain (by decide) minus)]
  exact outcome_invalidNumber

/-- What the text of a number gives as a formula, where the number gives the outcome. -/
def Literal.respelled (l : Literal) (o : Outcome) : Outcome :=
  if l.isNegative then ⟨0.0, some .invalidNumber⟩ else o

theorem Literal.exists_respelled {l : Literal} (finite : l.isFinite = true) {x : Float}
    (reads : l.text.number? = some x) :
    ∃ tokens, tokenize l.text = .ok tokens ∧ tokens ≠ [] ∧
      (∀ t ∈ tokens, Label.isLabel t = false) ∧
      ∀ env : Environment, env.isLabel = Label.isLabel →
        (evaluate env tokens).outcome = l.respelled ⟨x, none⟩ := by
  obtain ⟨n, formed, read⟩ := tokenize_text finite
  rw [respelled]
  cases negative : l.isNegative with
  | true =>
    rw [negative] at read
    have classes := Lexeme.classes_of_number? (number?_numeral formed)
    refine ⟨_, read, List.cons_ne_nil _ _, ?_, fun _ labels => ?_⟩
    · exact List.forall_mem_cons.mpr
        ⟨by decide, List.forall_mem_singleton.mpr (congrArg (·.2.1) classes)⟩
    · exact outcome_evaluate_minus labels (congrArg (·.2.2) classes)
  | false =>
    rw [negative] at read
    refine ⟨_, read, List.cons_ne_nil _ _, ?_, fun _ labels => ?_⟩
    · exact l.labelless
    · exact outcome_evaluate_number labels reads

namespace Sheet

/-- A formula without references, entered, shows what it gives in whatever environment. -/
theorem setFormula_labelless {s : Sheet} (own : s.SelfLabelled) {label k text : String}
    (hk : s.key label = .ok k) {tokens : List Token} (readable : tokenize text = .ok tokens)
    (nonempty : tokens ≠ []) (labelless : ∀ t ∈ tokens, Label.isLabel t = false) {o : Outcome}
    (outcome : ∀ env : Environment, env.isLabel = Label.isLabel →
      (FormulaSheet.evaluate env tokens).outcome = o) :
    (s.setFormula label (.text text)).value = .ok o ∧
      (s.setFormula label (.text text)).sheet.cell? k = some ⟨k, tokens, o.result, o.fault⟩ := by
  obtain ⟨slot, t, found, located⟩ := exists_locate hk
  have read : FormulaInput.read (.text text) = .ok tokens := readable
  rw [setFormula_of_read found read]
  have stored := stored_modify own located tokens
  have cell : (t.storeFormula slot tokens).sheet.cell? k = some ⟨k, tokens, o.result, o.fault⟩ :=
    cell?_of_labelless stored.own stored.formula labelless nonempty outcome
  obtain ⟨told, value, shown⟩ := storeFormula_shows own located tokens
  rw [cell] at shown
  cases shown
  exact ⟨value, cell⟩

theorem exists_cell?_of_text {entries cells : List (Value × Value)} {s : Sheet}
    (described : ofSpec entries = .ok s)
    (table : Value.find? "cells" entries = some (.table cells)) {k : String} {l : Literal}
    (last : Spec.GivenLast cells k (.text l.text)) (finite : l.isFinite = true) {x : Float}
    (reads : l.text.number? = some x) :
    ∃ c, s.recalculate.sheet.cell? k = some c ∧ c.outcome = l.respelled ⟨x, none⟩ := by
  obtain ⟨tokens, read, nonempty, labelless, gives⟩ := Literal.exists_respelled finite reads
  have formula := formula_of_given described table last (cellTokens?_text read)
  have own := selfLabelled_ofSpec described
  exact ⟨_, cell?_of_labelless own formula labelless nonempty gives, rfl⟩

/-- A cell with a finite number shows what the number reads as, without a fault, and displays the
text of the number as its formula. A cell with that text shows the same if the number has no minus
sign, and so does the first cell after its display is entered again. With a minus sign both give no
value. -/
theorem spellings_compared {entries cells entries' cells' : List (Value × Value)} {s s' : Sheet}
    (described : ofSpec entries = .ok s) (described' : ofSpec entries' = .ok s')
    (table : Value.find? "cells" entries = some (.table cells))
    (table' : Value.find? "cells" entries' = some (.table cells')) {k k' : String} {v : Value}
    {l : Literal} (finite : l.isFinite = true) (literal : Spec.IsLiteral l v)
    (last : Spec.GivenLast cells k v) (last' : Spec.GivenLast cells' k' (.text l.text)) :
    ∃ c c', s.recalculate.sheet.cell? k = some c ∧ s'.recalculate.sheet.cell? k' = some c' ∧
      l.text.number? = some c.value ∧ c.fault = none ∧ c.formulaText = l.text ∧
      c'.outcome = l.respelled c.outcome ∧
      ∀ label, Text.upper label = k →
        (s.recalculate.sheet.setFormula label (.text c.formulaText)).value =
            .ok (l.respelled c.outcome) ∧
          ((s.recalculate.sheet.setFormula label (.text c.formulaText)).sheet.cell? k).map
            Cell.outcome = some (l.respelled c.outcome) := by
  obtain ⟨x, reads⟩ := Literal.exists_number?_text finite
  have shown := cell?_of_literal described table last literal
    fun _ labels => outcome_evaluate_number labels reads
  obtain ⟨c', shown', outcome⟩ := exists_cell?_of_text described' table' last' finite reads
  have displayed : Cell.formulaText ⟨k, [l.text], x, none⟩ = l.text :=
    displayFormula_singleton l.text
  refine ⟨_, c', shown, shown', reads, rfl, displayed, outcome, fun label upper => ?_⟩
  have own := (recalculate_passed (selfLabelled_ofSpec described)).own
  have inside : s.recalculate.sheet.key label = .ok k :=
    key_eq_ok_iff.mpr ⟨upper.symm, isKey_of_cell? shown⟩
  obtain ⟨tokens, read, nonempty, labelless, gives⟩ := Literal.exists_respelled finite reads
  rw [displayed]
  obtain ⟨value, entered⟩ := setFormula_labelless own inside read nonempty labelless gives
  refine ⟨value, ?_⟩
  rw [entered]
  rfl

/-- A number without and one with a minus sign, each as a number and as its text. -/
def spelledCells : List (Value × Value) :=
  [(.text "A1", .number 2.5), (.text "B1", .text "2.5"), (.text "A2", .whole (-3)),
    (.text "B2", .text "-3")]

def spelledTable : List (Value × Value) := [(.text "cells", .table spelledCells)]

theorem exists_spelledTable : ∃ s, ofSpec spelledTable = .ok s :=
  exists_ofSpec (by decide +kernel)

theorem negative_given : Spec.GivenLast spelledCells "A2" (.whole (-3)) :=
  ⟨spelledCells.take 2, .text "A2", _, rfl, by decide +kernel, by decide +kernel⟩

theorem negative_text_given :
    Spec.GivenLast spelledCells "B2" (.text (Literal.whole (-3)).text) := by
  have text : (Literal.whole (-3)).text = "-3" := by decide +kernel
  rw [text]
  exact ⟨spelledCells.take 3, .text "B2", [], rfl, by decide +kernel, by simp⟩

theorem positive_given : Spec.GivenLast spelledCells "A1" (.number 2.5) :=
  ⟨[], .text "A1", _, rfl, by decide +kernel, by decide +kernel⟩

theorem positive_text_given :
    Spec.GivenLast spelledCells "B1" (.text (Literal.number 2.5).text) := by
  have text : (Literal.number 2.5).text = "2.5" := by decide +kernel
  rw [text]
  exact ⟨spelledCells.take 1, .text "B1", _, rfl, by decide +kernel, by decide +kernel⟩

theorem spellings_compared_in_table :
    ∃ s, ofSpec spelledTable = .ok s ∧
      (∃ c c', s.recalculate.sheet.cell? "A1" = some c ∧ s.recalculate.sheet.cell? "B1" = some c' ∧
        c.fault = none ∧ c'.outcome = c.outcome) ∧
      ∃ c c', s.recalculate.sheet.cell? "A2" = some c ∧ s.recalculate.sheet.cell? "B2" = some c' ∧
        c.fault = none ∧ c'.outcome = ⟨0.0, some .invalidNumber⟩ := by
  obtain ⟨s, described⟩ := exists_spelledTable
  obtain ⟨c, c', cell, cell', _, fault, _, outcome, _⟩ := spellings_compared described described rfl
    rfl (by decide +kernel) (.plain (l := .number 2.5)) positive_given positive_text_given
  obtain ⟨d, d', signed, signed', _, noFault, _, differs, _⟩ := spellings_compared described
    described rfl rfl rfl (.plain (l := .whole (-3))) negative_given negative_text_given
  have unsigned : (Literal.number 2.5).isNegative = false := by decide +kernel
  rw [Literal.respelled, unsigned, if_neg Bool.false_ne_true] at outcome
  refine ⟨s, described, ?_, ?_⟩
  · exact ⟨c, c', cell, cell', fault, outcome⟩
  · exact ⟨d, d', signed, signed', noFault, differs⟩

/-- Minus three as a number is its value, and as its text it is not. -/
theorem negative_spellings_differ :
    ¬ ∀ (entries cells : List (Value × Value)) (s : Sheet) (k k' : String) (v : Value)
        (l : Literal), ofSpec entries = .ok s → Value.find? "cells" entries = some (.table cells) →
      l.isFinite = true → Spec.IsLiteral l v → Spec.GivenLast cells k v →
      Spec.GivenLast cells k' (.text l.text) →
      s.recalculate.sheet.outcome k' = s.recalculate.sheet.outcome k := by
  intro all
  obtain ⟨s, described⟩ := exists_spelledTable
  obtain ⟨x, reads⟩ : ∃ x, (Literal.whole (-3)).text.number? = some x :=
    Literal.exists_number?_text rfl
  have signed := cell?_of_literal described rfl negative_given .plain
    fun _ labels => outcome_evaluate_number labels reads
  obtain ⟨c, spelled, outcome⟩ := exists_cell?_of_text described rfl negative_text_given rfl reads
  have same := all _ _ s _ _ _ _ described rfl rfl .plain negative_given negative_text_given
  rw [outcome_of_cell? signed, outcome_of_cell? spelled, outcome] at same
  cases congrArg Outcome.fault same

end Sheet

end FormulaSheet
