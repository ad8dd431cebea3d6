import Mathlib.Algebra.Group.Int.Defs
import FormulaSheet.Proofs.Decimal.Shortest
import FormulaSheet.Proofs.Decimal.Whole
import FormulaSheet.Proofs.Formula.Classes
import FormulaSheet.Proofs.Sheet.EditOrder
import FormulaSheet.Proofs.Sheet.Inlining
/-!
Numbers given in a table. A number becomes a formula of one token, its text, and the text is read
again when the cell is evaluated. Whole numbers and finite floats come back, with sign and exponent,
and other cells can refer to them. The texts of the infinities and of the undefined number are not
numbers to a formula, so their cells are faulty, and so is whatever refers to them.
-/

namespace FormulaSheet

/-- A number as a table gives it. -/
inductive Literal
  | whole (i : Int)
  | number (x : Float)

namespace Literal

def toValue : Literal → Value
  | whole i => .whole i
  | number x => .number x

/-- The token that the number becomes. -/
def text : Literal → Token
  | whole i => Decimal.intText i
  | number x => Decimal.shortest x

def toFloat : Literal → Float
  | whole i => Float.ofInt i
  | number x => x

def isFinite : Literal → Bool
  | whole _ => true
  | number x => !x.isNaN && !x.isInf

/-- Whether the text has a minus sign; that of negative zero has one. -/
def isNegative : Literal → Bool
  | whole i => decide (i < 0)
  | number x => Decimal.isNegative x

/-- A float whose text reads as no other number. -/
def Exact : Literal → Prop
  | whole _ => True
  | number x => ∀ y, Token.number? (Decimal.shortest x) = some y → y = x

variable {l : Literal}

/-! The text of a number. -/

theorem spelled (finite : l.isFinite = true) :
    ∃ n : Decimal.Numeral, n.Formed ∧
      l.text.toList = (Decimal.minus l.isNegative).toList ++ n.chars := by
  cases l with
  | whole i =>
    refine ⟨_, Decimal.formed_wholeNumeral i.natAbs, ?_⟩
    rw [text, Decimal.intText, String.toList_ofList, Decimal.signedDigits_eq]
    rfl
  | number x =>
    obtain ⟨defined, bounded⟩ : x.isNaN = false ∧ x.isInf = false := by
      simpa [isFinite] using finite
    obtain ⟨n, written, chars⟩ := Decimal.shortest_written defined bounded
    refine ⟨n, written.formed, ?_⟩
    rw [text, chars, isNegative, Decimal.toList_minus]

theorem exists_number?_text (finite : l.isFinite = true) : ∃ x, l.text.number? = some x := by
  obtain ⟨n, formed, chars⟩ := spelled finite
  rw [Token.number?, chars]
  exact ⟨_, Decimal.readNumber?_chars formed l.isNegative⟩

theorem number?_text (finite : l.isFinite = true) (exact : l.Exact) :
    l.text.number? = some l.toFloat := by
  cases l with
  | whole i =>
    rw [text, Decimal.intText, Token.number?, String.toList_ofList]
    exact Decimal.readNumber?_signedDigits i
  | number x =>
    obtain ⟨y, reads⟩ := exists_number?_text finite
    rw [reads]
    exact congrArg some (exact y reads)

theorem text_of_notFinite (infinite : l.isFinite = false) :
    l.text = "nan" ∨ l.text = "inf" ∨ l.text = "-inf" := by
  cases l with
  | whole i => cases infinite
  | number x =>
    rw [text, Decimal.shortest]
    by_cases undefined : x.isNaN = true
    · exact .inl (if_pos undefined)
    · have bounded : x.isInf = true := by
        rwa [isFinite, eq_false_of_ne_true undefined, Bool.not_false, Bool.true_and,
          Bool.not_eq_false'] at infinite
      rw [if_neg undefined, if_pos bounded]
      by_cases negative : Decimal.isNegative x = true
      · rw [if_pos negative]
        exact .inr (.inr rfl)
      · rw [if_neg negative]
        exact .inr (.inl rfl)

theorem classes_text (l : Literal) : l.text.classes = (l.isFinite, false, false) := by
  cases finite : l.isFinite with
  | true =>
    obtain ⟨x, reads⟩ := exists_number?_text finite
    exact Lexeme.classes_of_number? reads
  | false =>
    rcases text_of_notFinite finite with text | text | text
    all_goals
      rw [text]
      decide +kernel

theorem isLabel_text (l : Literal) : Label.isLabel l.text = false :=
  congrArg (·.2.1) l.classes_text

theorem labelless (l : Literal) : ∀ t ∈ [l.text], Label.isLabel t = false :=
  List.forall_mem_singleton.mpr l.isLabel_text

/-! The formula of its text. -/

/-- What a cell with the number shows. -/
def outcome (l : Literal) : Outcome :=
  if l.isFinite then ⟨l.toFloat, none⟩ else ⟨0.0, some .invalidNumber⟩

end Literal

theorem outcome_evaluate_number {env : Environment} (labels : env.isLabel = Label.isLabel)
    {t : Token} {x : Float} (reads : t.number? = some x) :
    (evaluate env [t]).outcome = ⟨x, none⟩ := by
  have plain : t ∉ Grammar.symbols := fun mem => Grammar.number_ne_symbol reads mem rfl
  have label : Label.isLabel t = false := congrArg (·.2.1) (Lexeme.classes_of_number? reads)
  rw [outcome_evaluate_operand env plain, Reader.operandValue, labels, label,
    if_neg Bool.false_ne_true, reads]
  rfl

theorem outcome_invalidNumber : Stop.outcome ⟨.invalidNumber, 0.0, none⟩ =
    ⟨0.0, some .invalidNumber⟩ := by
  simp [Stop.outcome]

theorem Literal.outcome_evaluate {l : Literal} {env : Environment}
    (labels : env.isLabel = Label.isLabel) (exact : l.Exact) :
    (evaluate env [l.text]).outcome = l.outcome := by
  rw [outcome]
  cases finite : l.isFinite with
  | true => exact outcome_evaluate_number labels (number?_text finite exact)
  | false =>
    have plain : l.text ∉ Grammar.symbols := by
      rcases text_of_notFinite finite with text | text | text
      all_goals
        rw [text]
        decide
    have noNumber : l.text.number? = none := by
      have isNumber : l.text.isNumber = l.isFinite := congrArg (·.1) l.classes_text
      rwa [finite, Token.isNumber, Option.isSome_eq_false_iff, Option.isNone_iff_eq_none]
        at isNumber
    rw [outcome_evaluate_operand env plain, Reader.operandValue, labels, l.isLabel_text,
      if_neg Bool.false_ne_true, noNumber]
    exact outcome_invalidNumber

/-! Cells of a table. -/

namespace Spec

/-- What is given for a cell is the number, plain or as the value in a table without a formula. -/
inductive IsLiteral (l : Literal) : Value → Prop
  | plain : IsLiteral l l.toValue
  | inTable {entries : List (Value × Value)} (noFormula : given? "formula" entries = none)
      (value : given? "value" entries = some l.toValue) : IsLiteral l (.table entries)

theorem IsLiteral.cellTokens? {l : Literal} {v : Value} (h : IsLiteral l v) :
    cellTokens? v = .ok (some [l.text]) := by
  cases h with
  | plain => cases l <;> rfl
  | inTable noFormula value =>
    rw [Spec.cellTokens?, noFormula, value]
    cases l <;> rfl

/-- The value is given for the cell of the key, and no later entry gives the cell again. Labels in
either case stand for one key. -/
def GivenLast (cells : List (Value × Value)) (k : String) (v : Value) : Prop :=
  ∃ front label behind, cells = front ++ (label, v) :: behind ∧ Text.upper label.display = k ∧
    ∀ e ∈ behind, Text.upper e.1.display = k → cellTokens? e.2 = .ok none

end Spec

namespace Sheet

theorem fill_stored {s t : Sheet} (own : s.SelfLabelled) {label v : Value}
    {rest : List (Value × Value)} (filled : Spec.fill s ((label, v) :: rest) = .ok t) :
    (Spec.cellTokens? v = .ok none ∧ Spec.fill s rest = .ok t) ∨
      ∃ tokens u, Spec.cellTokens? v = .ok (some tokens) ∧
        Stored (Text.upper label.display) tokens s u ∧ Spec.fill u rest = .ok t := by
  rcases fill_cases filled with left | ⟨tokens, slot, u, given, located, later⟩
  · exact .inl left
  · exact .inr ⟨tokens, _, given, stored_modify own (located_of_locate located) tokens, later⟩

theorem formula_fill_of_aside {s t : Sheet} (own : s.SelfLabelled) {entries : List (Value × Value)}
    {k : String} (aside : ∀ e ∈ entries, Text.upper e.1.display = k →
      Spec.cellTokens? e.2 = .ok none) (filled : Spec.fill s entries = .ok t) :
    t.formula k = s.formula k := by
  induction entries generalizing s with
  | nil =>
    cases filled
    rfl
  | cons e rest ih =>
    obtain ⟨label, v⟩ := e
    have asideThere := fun e he => aside e (List.mem_cons_of_mem _ he)
    rcases fill_stored own filled with ⟨_, later⟩ | ⟨tokens, u, given, stored, later⟩
    · exact ih own asideThere later
    · have other : k ≠ Text.upper label.display := by
        rintro rfl
        have none := aside _ List.mem_cons_self rfl
        rw [given] at none
        cases none
      rw [ih stored.own asideThere later, stored.elsewhere k other]

theorem formula_fill {s t : Sheet} (own : s.SelfLabelled) {cells : List (Value × Value)}
    (filled : Spec.fill s cells = .ok t) {k : String} {v : Value} (last : Spec.GivenLast cells k v)
    {tokens : List Token} (given : Spec.cellTokens? v = .ok (some tokens)) :
    t.formula k = tokens := by
  obtain ⟨front, label, behind, rfl, key, aside⟩ := last
  -- whatever the entries in front store under the key, the given one stores over it
  induction front generalizing s with
  | nil =>
    rcases fill_stored own filled with ⟨none, _⟩ | ⟨tokens', u, given', stored, later⟩
    · rw [given] at none
      cases none
    · rw [given] at given'
      cases given'
      rw [formula_fill_of_aside stored.own aside later, ← key, stored.formula]
  | cons e front ih =>
    obtain ⟨label', v'⟩ := e
    rcases fill_stored own filled with ⟨_, later⟩ | ⟨_, u, _, stored, later⟩
    · exact ih own later
    · exact ih stored.own later

theorem formula_of_given {entries cells : List (Value × Value)} {s : Sheet}
    (described : ofSpec entries = .ok s)
    (table : Value.find? "cells" entries = some (.table cells)) {k : String} {v : Value}
    (last : Spec.GivenLast cells k v) {tokens : List Token}
    (given : Spec.cellTokens? v = .ok (some tokens)) : s.formula k = tokens := by
  obtain ⟨rows, columns, blank, new, filled⟩ := ofSpec_cases described
  rw [table] at filled
  exact formula_fill (steady_empty? new).own filled last given

/-! Formulas without references. -/

section Labelless

variable {s : Sheet} {k : String} {tokens : List Token} (own : s.SelfLabelled)
  (formula : s.formula k = tokens) (labelless : ∀ t ∈ tokens, Label.isLabel t = false)

include formula labelless in
theorem acyclic_of_labelless : s.Acyclic k := by
  apply Acyclic.of_below
  intro d refers
  obtain ⟨mem, label⟩ := dependsOn_iff.mp refers
  rw [labelless d (formula ▸ mem)] at label
  cases label

include own formula labelless in
/-- A formula without references shows what it gives in whatever environment. -/
theorem cell?_of_labelless (nonempty : tokens ≠ []) {o : Outcome}
    (outcome : ∀ env : Environment, env.isLabel = Label.isLabel →
      (FormulaSheet.evaluate env tokens).outcome = o) :
    s.recalculate.sheet.cell? k = some ⟨k, tokens, o.result, o.fault⟩ := by
  obtain ⟨c, hc, filled⟩ := exists_cell?_of_formula (formula.symm ▸ nonempty)
  have acyclic := acyclic_of_labelless formula labelless
  have here : c.formula = tokens := (formula_of_cell? hc).symm.trans formula
  rw [recalculate_settled own hc filled acyclic, here, outcome _ rfl, Cell.setOutcome]
  simp only [Cell.setFault, Cell.setValue, own k c hc, here]

end Labelless

/-! References alone. -/

theorem resolve_of_fault {s : Sheet} {k : String} {c : Cell} (hc : s.cell? k = some c)
    {fault : Fault} (faulty : c.fault = some fault) (other : fault ≠ .emptyFormula) :
    (s.environment Label.isLabel).resolve k = .error fault := by
  have kept : c.reading.fault.filter (· ≠ .emptyFormula) = some fault :=
    Option.filter_eq_some_iff.mpr ⟨faulty, decide_eq_true other⟩
  rw [Environment.resolve, read_environment_of_cell? hc]
  dsimp only
  rw [kept]

/-- A formula that is a reference shows the value of the cell, or its fault alone. -/
theorem evaluate_reference {s : Sheet} {k : String} {c : Cell} (hc : s.cell? k = some c)
    (filled : c.formula ≠ []) (known : c.fault ≠ some .emptyFormula) :
    (FormulaSheet.evaluate (s.environment Label.isLabel) [k]).outcome =
      match c.fault with
      | none => ⟨c.value, none⟩
      | some fault => Stop.outcome ⟨fault, 0.0, none⟩ := by
  have label : Label.isLabel k = true := Label.isLabel_of_isKey (isKey_of_cell? hc)
  have asked : (s.environment Label.isLabel).isLabel k = true := label
  have plain : k ∉ Grammar.symbols := fun mem => Grammar.label_ne_symbol isLabel_plain label mem rfl
  rw [outcome_evaluate_operand _ plain, Reader.operandValue, if_pos asked]
  cases fault : c.fault with
  | none =>
    rw [resolve_of_cell? hc filled fault]
    rfl
  | some f =>
    rw [resolve_of_fault hc fault fun same => known (same ▸ fault)]
    rfl

theorem evaluate_reference_literal {s : Sheet} {k : String} {l : Literal}
    (hc : s.cell? k = some ⟨k, [l.text], l.outcome.result, l.outcome.fault⟩) :
    (FormulaSheet.evaluate (s.environment Label.isLabel) [k]).outcome = l.outcome := by
  have known : l.outcome.fault ≠ some .emptyFormula := by
    rw [Literal.outcome]
    split <;> simp
  rw [evaluate_reference hc (List.cons_ne_nil _ _) known, Literal.outcome]
  cases l.isFinite with
  | true => rfl
  | false => exact outcome_invalidNumber

/-! Cells with numbers, and cells that refer to them. -/

/-- The recalculation tells of a cell with a formula what the cell shows then. -/
theorem recalculate_tells {s : Sheet} (own : s.SelfLabelled) {k : String} {c : Cell}
    (hc : s.recalculate.sheet.cell? k = some c) (filled : c.formula ≠ []) :
    ∃ results, s.recalculate.value = .ok results ∧ (k, c.outcome) ∈ results := by
  have stored := stored_of_mem_evaluationOrder own
  obtain ⟨results, told, labels, _⟩ := evaluateAll_passed own stored
  have mem : k ∈ results.map (·.1) := by
    rw [labels]
    apply mem_evaluationOrder_of_formula own
    rwa [← formula_recalculate own, formula_of_cell? hc]
  obtain ⟨r, hr, rfl⟩ := List.mem_map.mp mem
  have kept : (s.recalculate.sheet.cell? r.1).map Cell.outcome = some r.2 :=
    evaluateAll_kept own stored s.nodup_evaluationOrder told r hr
  rw [hc] at kept
  exact ⟨results, told, Option.some.inj kept ▸ hr⟩

/-- After a recalculation, which tells of it, the cell shows the outcome, and so does a formula that
is a reference to the cell, evaluated by itself or in a cell of its own. -/
structure Shows (s : Sheet) (k : String) (tokens : List Token) (o : Outcome) : Prop where
  told : ∃ results, s.recalculate.value = .ok results ∧ (k, o) ∈ results
  cell : s.recalculate.sheet.cell? k = some ⟨k, tokens, o.result, o.fault⟩
  reference : (s.recalculate.sheet.evaluate Label.isLabel [k]).1 = o
  referring : ∀ k' c, s.cell? k' = some c → c.formula = [k] →
    s.recalculate.sheet.cell? k' = some (c.setOutcome o)

section Given

variable {entries cells : List (Value × Value)} {s : Sheet} (described : ofSpec entries = .ok s)
  (table : Value.find? "cells" entries = some (.table cells)) {k : String} {v : Value} {l : Literal}
  (last : Spec.GivenLast cells k v) (literal : Spec.IsLiteral l v)
include described table last literal

theorem cell?_of_literal {o : Outcome}
    (gives : ∀ env : Environment, env.isLabel = Label.isLabel →
      (FormulaSheet.evaluate env [l.text]).outcome = o) :
    s.recalculate.sheet.cell? k = some ⟨k, [l.text], o.result, o.fault⟩ :=
  cell?_of_labelless (selfLabelled_ofSpec described)
    (formula_of_given described table last literal.cellTokens?) l.labelless (List.cons_ne_nil _ _)
    gives

theorem acyclic_of_reference {k' : String} (reference : s.formula k' = [k]) : s.Acyclic k' := by
  have formula := formula_of_given described table last literal.cellTokens?
  apply Acyclic.of_below
  intro d refers
  have mem := (dependsOn_iff.mp refers).1
  rw [reference] at mem
  exact List.mem_singleton.mp mem ▸ acyclic_of_labelless formula l.labelless

variable (exact : l.Exact)
include exact

theorem shows_literal : Shows s k [l.text] l.outcome := by
  have own := selfLabelled_ofSpec described
  have cell := cell?_of_literal described table last literal
    fun _ labels => Literal.outcome_evaluate labels exact
  constructor
  · exact recalculate_tells own cell (List.cons_ne_nil _ _)
  · exact cell
  · exact evaluate_reference_literal cell
  · intro k' c hc reference
    have acyclic := acyclic_of_reference described table last literal
      ((formula_of_cell? hc).trans reference)
    have filled : c.isFilled = true := isFilled_iff.mpr (by simp [reference])
    rw [recalculate_settled own hc filled acyclic, reference, evaluate_reference_literal cell]

/-- A number that is given for a cell, and not again behind that, is what the cell shows after a
recalculation, without a fault, if the number is finite. The infinities and the undefined number are
no numbers to a formula: their cells show zero with a fault, and so does what refers to them. -/
theorem literals_shown :
    (l.isFinite = true → Shows s k [l.text] ⟨l.toFloat, none⟩) ∧
      (l.isFinite = false → Shows s k [l.text] ⟨0.0, some .invalidNumber⟩) := by
  have shows := shows_literal described table last literal exact
  rw [Literal.outcome] at shows
  constructor
  · intro finite
    rwa [if_pos finite] at shows
  · intro infinite
    rwa [infinite, if_neg Bool.false_ne_true] at shows

end Given

theorem exists_ofSpec {entries : List (Value × Value)} (accepted : (ofSpec entries).isOk = true) :
    ∃ s, ofSpec entries = .ok s := by
  cases described : ofSpec entries with
  | ok s => exact ⟨s, rfl⟩
  | error e =>
    rw [described] at accepted
    cases accepted

/-- A small float as the value in a table of its own, a reference to it, and infinity. -/
def literalCells : List (Value × Value) :=
  [(.text "a1", .table [(.text "value", .number 1e-05)]), (.text "B1", .text "=A1"),
    (.text "A2", .number (1.0 / 0.0))]

def literalTable : List (Value × Value) := [(.text "cells", .table literalCells)]

theorem exists_literalTable : ∃ s, ofSpec literalTable = .ok s :=
  exists_ofSpec (by decide +kernel)

theorem small_given : Spec.GivenLast literalCells "A1" (.table [(.text "value", .number 1e-05)]) :=
  ⟨[], .text "a1", _, rfl, by decide +kernel, by decide +kernel⟩

theorem infinity_given : Spec.GivenLast literalCells "A2" (.number (1.0 / 0.0)) :=
  ⟨literalCells.take 2, .text "A2", [], rfl, by decide +kernel, by simp⟩

theorem small_exact : (Literal.number 1e-05).Exact := by
  have text : Token.number? (Decimal.shortest 1e-05) = some 1e-05 := by decide +kernel
  intro y reads
  exact Option.some.inj (reads.symm.trans text)

theorem infinity_exact : (Literal.number (1.0 / 0.0)).Exact := by
  have text : Token.number? (Decimal.shortest (1.0 / 0.0)) = none := by decide +kernel
  intro y reads
  rw [text] at reads
  cases reads

theorem literals_shown_in_table :
    ∃ s, ofSpec literalTable = .ok s ∧ Shows s "A1" ["1e-05"] ⟨1e-05, none⟩ ∧
      Shows s "A2" ["inf"] ⟨0.0, some .invalidNumber⟩ := by
  obtain ⟨s, described⟩ := exists_literalTable
  have smallText : (Literal.number 1e-05).text = "1e-05" := by decide +kernel
  have infiniteText : (Literal.number (1.0 / 0.0)).text = "inf" := by decide +kernel
  have small := literals_shown described rfl small_given (.inTable rfl rfl) small_exact
  have infinite := literals_shown described rfl infinity_given
    (.plain (l := .number (1.0 / 0.0))) infinity_exact
  rw [smallText] at small
  rw [infiniteText] at infinite
  exact ⟨s, described, small.1 (by decide +kernel), infinite.2 (by decide +kernel)⟩

/-- Infinity is given as a number, and its cell does not show it. -/
theorem infinity_not_shown :
    ¬ ∀ (entries cells : List (Value × Value)) (s : Sheet) (k : String) (v : Value) (l : Literal),
      ofSpec entries = .ok s → Value.find? "cells" entries = some (.table cells) →
      Spec.GivenLast cells k v → Spec.IsLiteral l v → l.Exact →
      Shows s k [l.text] ⟨l.toFloat, none⟩ := by
  intro all
  obtain ⟨s, described⟩ := exists_literalTable
  have claimed := (all _ _ s _ _ _ described rfl infinity_given
    (.plain (l := .number (1.0 / 0.0))) infinity_exact).reference
  have shown := (shows_literal described rfl infinity_given
    (.plain (l := .number (1.0 / 0.0))) infinity_exact).reference
  have fault := congrArg Outcome.fault (shown.symm.trans claimed)
  revert fault
  decide +kernel

/-- A cell that is given twice, and one that is given a whole number above all floats. -/
def wholeCells : List (Value × Value) :=
  [(.text "A1", .whole 5), (.text "a1", .whole 7), (.text "B1", .whole (10 ^ 309))]

def wholeTable : List (Value × Value) := [(.text "cells", .table wholeCells)]

theorem exists_wholeTable : ∃ s, ofSpec wholeTable = .ok s :=
  exists_ofSpec (by decide +kernel)

/-- Of two numbers given for one cell the cell does not show the first. -/
theorem first_of_two_not_shown :
    ¬ ∀ (entries cells : List (Value × Value)) (s : Sheet) (label v : Value) (l : Literal),
      ofSpec entries = .ok s → Value.find? "cells" entries = some (.table cells) →
      (label, v) ∈ cells → Spec.IsLiteral l v → l.isFinite = true → l.Exact →
      Shows s (Text.upper label.display) [l.text] ⟨l.toFloat, none⟩ := by
  intro all
  obtain ⟨s, described⟩ := exists_wholeTable
  have key : Text.upper (Value.text "A1").display = "A1" := by decide +kernel
  have last : Spec.GivenLast wholeCells "A1" (.whole 7) :=
    ⟨wholeCells.take 1, .text "a1", _, rfl, by decide +kernel, by decide +kernel⟩
  have claimed := (all _ _ s _ _ (.whole 5) described rfl List.mem_cons_self .plain rfl trivial).cell
  have shown := (shows_literal described rfl last (.plain (l := .whole 7)) trivial).cell
  rw [key, shown] at claimed
  have formula := congrArg Cell.formula (Option.some.inj claimed)
  revert formula
  decide +kernel

/-- A whole number above all floats is shown as infinity, and not as a number within them. -/
theorem huge_whole_not_within :
    ¬ ∀ (entries cells : List (Value × Value)) (s : Sheet) (k : String) (v : Value) (l : Literal),
      ofSpec entries = .ok s → Value.find? "cells" entries = some (.table cells) →
      Spec.GivenLast cells k v → Spec.IsLiteral l v → l.isFinite = true → l.Exact →
      ∃ x : Float, x.isInf = false ∧ Shows s k [l.text] ⟨x, none⟩ := by
  intro all
  obtain ⟨s, described⟩ := exists_wholeTable
  have last : Spec.GivenLast wholeCells "B1" (.whole (10 ^ 309)) :=
    ⟨wholeCells.take 2, .text "B1", [], rfl, by decide +kernel, by simp⟩
  obtain ⟨x, within, claimed⟩ := all _ _ s _ _ (.whole (10 ^ 309)) described rfl last .plain rfl
    trivial
  have shown := (shows_literal described rfl last (.plain (l := .whole (10 ^ 309))) trivial).cell
  rw [claimed.cell] at shown
  have same : x = Float.ofInt (10 ^ 309) := congrArg Cell.value (Option.some.inj shown)
  have infinite : (Float.ofInt (10 ^ 309)).isInf = true := by decide +kernel
  rw [same, infinite] at within
  cases within

end Sheet

end FormulaSheet
