import FormulaSheet.Proofs.Formula.LeftToRight
import FormulaSheet.Proofs.Sheet.Order
/-!
What a sheet answers to formulas that fail. If only the operator at the end is wrong, the value in
front of it stands; else the first fault from left to right is told, with the number that goes with
it, whatever stands behind.
-/

namespace FormulaSheet.Sheet

theorem parse?_operator : ∀ t ∈ Grammar.symbols, Label.parse? (Text.upper t) = none := by
  decide +kernel

theorem operatorsApart (s : Sheet) (isLabel : Token → Bool) :
    Reader.OperatorsApart (s.environment isLabel) := by
  intro t operator
  have mem := Reader.mem_symbols_of_isOperator operator
  cases label : isLabel t with
  | false => exact ⟨_, Reader.operandValue_of_plain operator label⟩
  | true =>
    have read : (s.environment isLabel).read t = none := by
      cases hk : s.key t with
      | error e => simp only [environment, hk]
      | ok k =>
        obtain ⟨rfl, inside⟩ := key_eq_ok_iff.mp hk
        obtain ⟨p, hp, _⟩ := Label.isKey_iff.mp inside
        rw [parse?_operator t mem] at hp
        cases hp
    refine ⟨.invalidCell, ?_⟩
    have asked : (s.environment isLabel).isLabel t = true := label
    rw [Reader.operandValue, if_pos asked, Environment.resolve, read]

variable {s : Sheet} {isLabel : Token → Bool} {tokens front : List Token}

theorem outcome_of_read (filled : tokens ≠ []) :
    (s.evaluate isLabel tokens).1 = settle (tokens.getLast?.any Token.isOperator)
      (Reader.read (s.environment isLabel) {} (withoutTrailing tokens)) :=
  outcome_evaluate (s.environment isLabel) filled

theorem outcome_of_stop (filled : tokens ≠ []) {stop : Stop}
    (stopped : Reader.read (s.environment isLabel) {} (withoutTrailing tokens) = .error stop) :
    (s.evaluate isLabel tokens).1 = stop.outcome := by
  rw [outcome_of_read filled, stopped]
  rfl

/-- A formula with a value is its own body. -/
theorem outcome_of_value {body : List Token} {x : Float}
    (read : Reader.read (s.environment isLabel) {} body = .ok x) :
    (s.evaluate isLabel body).1 = ⟨x, none⟩ := by
  rcases List.eq_nil_or_concat' body with rfl | ⟨front, t, rfl⟩
  · cases read
  · have plain := Reader.isOperator_eq_false_of_read (s.operatorsApart isLabel) read
    have body : withoutTrailing (front ++ [t]) = front ++ [t] := by
      rw [withoutTrailing_append_singleton, plain]
      rfl
    rw [outcome_of_read (List.append_ne_nil_of_right_ne_nil front (List.cons_ne_nil t [])), body,
      read, List.getLast?_concat, Option.any_some, plain]
    rfl

/-- The tokens behind the one that stops a reading change nothing. -/
theorem outcome_of_stopped {stop : Stop}
    (stopped : Reader.advance (s.environment isLabel) {} front = .error stop) (more : List Token)
    (apart : more ≠ [] ∨ ∀ t, Token.isOperator t = true → isLabel t = false) :
    (s.evaluate isLabel (front ++ more)).1 = stop.outcome := by
  have filled : front ≠ [] := by
    rintro rfl
    cases stopped
  apply outcome_of_stop (List.append_ne_nil_of_left_ne_nil filled more)
  rcases List.eq_nil_or_concat' more with rfl | ⟨rest, t, rfl⟩
  · -- the operator that is set aside may be the token that stops the reading
    obtain ⟨before, t, rfl⟩ := (List.eq_nil_or_concat' front).resolve_left filled
    rw [List.append_nil, withoutTrailing_append_singleton]
    split
    · rename_i operator
      have plain := apart.resolve_left (fun h => h rfl) t operator
      exact Reader.read_of_stopped_at_operator operator plain stopped
    · rw [← List.append_nil (before ++ [t])]
      exact Reader.read_of_stopped stopped []
  · rw [← List.append_assoc, withoutTrailing_append_singleton]
    split
    · exact Reader.read_of_stopped stopped rest
    · rw [List.append_assoc]
      exact Reader.read_of_stopped stopped (rest ++ [t])

/-- A formula fails either by an operator at its end alone, and then offers its exact value, or by
the first fault of a reading from left to right. Where that reading stops at a token, every formula
that begins with the same tokens has the same outcome. -/
theorem failing_outcome (s : Sheet) (isLabel : Token → Bool) {tokens : List Token}
    (filled : tokens ≠ []) (failing : (s.evaluate isLabel tokens).1.fault ≠ none) :
    ((s.evaluate isLabel (withoutTrailing tokens)).1.fault = none →
      (s.evaluate isLabel tokens).1 =
        ⟨(s.evaluate isLabel (withoutTrailing tokens)).1.result, some .invalidFormula⟩) ∧
    ((s.evaluate isLabel (withoutTrailing tokens)).1.fault ≠ none →
      ∃ stop, Reader.read (s.environment isLabel) {} (withoutTrailing tokens) = .error stop ∧
        (s.evaluate isLabel tokens).1 = stop.outcome ∧
        ∀ front, front <+: withoutTrailing tokens →
          Reader.advance (s.environment isLabel) {} front = .error stop → ∀ more : List Token,
            (more ≠ [] ∨ ∀ t, Token.isOperator t = true → isLabel t = false) →
            (s.evaluate isLabel (front ++ more)).1 = (s.evaluate isLabel tokens).1) := by
  have outcome : (s.evaluate isLabel tokens).1 = settle (tokens.getLast?.any Token.isOperator)
      (Reader.read (s.environment isLabel) {} (withoutTrailing tokens)) := outcome_of_read filled
  cases read : Reader.read (s.environment isLabel) {} (withoutTrailing tokens) with
  | ok x =>
    rw [outcome_of_value read]
    constructor
    · intro _
      rw [read] at outcome
      cases trailing : tokens.getLast?.any Token.isOperator with
      | true => rw [outcome, trailing]; rfl
      | false =>
        rw [outcome, trailing] at failing
        exact absurd rfl failing
    · intro fails
      exact absurd rfl fails
  | error stop =>
    have stopped := outcome_of_stop filled read
    constructor
    · intro sound
      rw [read_of_fault_eq_none sound] at read
      cases read
    · intro _
      refine ⟨stop, rfl, stopped, ?_⟩
      intro front _ atToken more apart
      rw [outcome_of_stopped atToken more apart, stopped]

theorem isLabel_plain : Grammar.Plain Label.isLabel := by
  unfold Grammar.Plain
  decide

theorem isLabel_of_isOperator {t : Token} (h : Token.isOperator t = true) :
    Label.isLabel t = false :=
  isLabel_plain t (Reader.mem_symbols_of_isOperator h)

/-- A difference that is nothing is offered as it is; behind the reference that fails, nothing
matters, not even that the formula ends there. -/
theorem failing_outcome_on_circle :
    ((circle.evaluate Label.isLabel ["3", "-", "3", "*"]).1.fault ≠ none ∧
      (circle.evaluate Label.isLabel ["3", "-", "3", "*"]).1 = ⟨0.0, some .invalidFormula⟩) ∧
    (circle.evaluate Label.isLabel ["2", "*", "B1", ")", "+"]).1.fault ≠ none ∧
      ∀ more, (circle.evaluate Label.isLabel (["2", "*", "B1"] ++ more)).1 =
        ⟨2.0, some .invalidCell⟩ := by
  have trailing : (circle.evaluate Label.isLabel ["3", "-", "3", "*"]).1.fault ≠ none := by
    rw [outcome_of_read (List.cons_ne_nil _ _)]
    decide +kernel
  have sound : (circle.evaluate Label.isLabel ["3", "-", "3"]).1.fault = none := by
    rw [outcome_of_read (List.cons_ne_nil _ _)]
    decide +kernel
  have zero : (circle.evaluate Label.isLabel ["3", "-", "3"]).1.result = 0.0 := by
    rw [outcome_of_read (List.cons_ne_nil _ _)]
    decide +kernel
  have fails : (circle.evaluate Label.isLabel ["2", "*", "B1", ")", "+"]).1.fault ≠ none := by
    rw [outcome_of_read (List.cons_ne_nil _ _)]
    decide +kernel
  have failsInFront : (circle.evaluate Label.isLabel ["2", "*", "B1", ")"]).1.fault ≠ none := by
    rw [outcome_of_read (List.cons_ne_nil _ _)]
    decide +kernel
  have atReference : Reader.advance (circle.environment Label.isLabel) {} ["2", "*", "B1"] =
      .error ⟨.invalidCell, 0.0, some 2.0⟩ := by
    decide +kernel
  constructor
  · have kept := (failing_outcome circle Label.isLabel (List.cons_ne_nil _ _) trailing).1 sound
    exact ⟨trailing, kept.trans (congrArg (Outcome.mk · _) zero)⟩
  · obtain ⟨stop, read, outcome, alike⟩ :=
      (failing_outcome circle Label.isLabel (List.cons_ne_nil _ _) fails).2 failsInFront
    have same := read.symm.trans (Reader.read_of_stopped atReference [")"])
    cases same
    refine ⟨fails, fun more => ?_⟩
    have inFront : ["2", "*", "B1"] <+: ["2", "*", "B1", ")"] := ⟨[")"], rfl⟩
    rw [alike ["2", "*", "B1"] inFront atReference more (.inr fun t => isLabel_of_isOperator),
      outcome]
    rfl

end FormulaSheet.Sheet
