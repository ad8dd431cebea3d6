import FormulaSheet.Proofs.Formula.Grammar
import FormulaSheet.Proofs.Formula.Rules
/-!
Evaluation against the grammar. A rule that gives a value has read a tree whose references resolve
and which divides by no zero, and gives the value of that tree; and every such tree is read to its
end wherever no operator of its rank follows.
-/

namespace FormulaSheet

open Grammar

variable {env : Environment}

theorem filter_fault_eq_none_iff {fault : Option Fault} :
    fault.filter (· ≠ .emptyFormula) = none ↔ fault = none ∨ fault = some .emptyFormula := by
  cases fault with
  | none => simp
  | some fault => simp [Option.filter]

theorem Environment.resolve_eq_ok_iff {label : Token} {x : Float} :
    env.resolve label = .ok x ↔ env.Resolves label ∧ x = env.valueOf label := by
  constructor
  · intro h
    unfold resolve at h
    split at h
    · cases h
    · rename_i cell hc
      split at h
      · cases h
      · rename_i harmless
        split at h
        · rename_i filled
          cases h
          refine ⟨⟨cell, hc, filled, filter_fault_eq_none_iff.mp harmless⟩, ?_⟩
          rw [valueOf, hc]
          rfl
        · cases h
  · rintro ⟨⟨cell, hc, filled, harmless⟩, rfl⟩
    rw [resolve, hc]
    dsimp only
    rw [filter_fault_eq_none_iff.mpr harmless]
    dsimp only
    rw [if_pos filled, valueOf, hc]
    rfl

/-- The labels resolve and none of the divisors is zero. -/
structure Clear (env : Environment) (references : List Token) (divisors : List Float) : Prop where
  resolved : ∀ label ∈ references, env.Resolves label
  nonzero : ∀ x ∈ divisors, (x == 0.0) = false

theorem clear_nil : Clear env [] [] := by
  constructor
  · intro label h
    cases h
  · intro x h
    cases h

theorem clear_append {references references' : List Token} {divisors divisors' : List Float} :
    Clear env (references ++ references') (divisors ++ divisors') ↔
      Clear env references divisors ∧ Clear env references' divisors' := by
  constructor
  · rintro ⟨resolved, nonzero⟩
    rw [List.forall_mem_append] at resolved nonzero
    exact ⟨⟨resolved.1, nonzero.1⟩, ⟨resolved.2, nonzero.2⟩⟩
  · rintro ⟨h, h'⟩
    exact ⟨List.forall_mem_append.mpr ⟨h.resolved, h'.resolved⟩,
      List.forall_mem_append.mpr ⟨h.nonzero, h'.nonzero⟩⟩

/-! Trees are read. -/

theorem sums_of_past {ts : List Token} (h : Past Token.additive? ts) (total : Float) :
    (sums env total ts).progress = .value total ts [] := by
  cases ts with
  | nil => exact progress_sums_nil env total
  | cons t rest => rw [progress_sums_cons, h t rfl]

theorem products_of_past {ts : List Token} (h : Past Token.multiplicative? ts) (product : Float) :
    (products env product ts).progress = .value product ts [] := by
  cases ts with
  | nil => exact progress_products_nil env product
  | cons t rest => rw [progress_products_cons, h t rfl]

theorem quotient_of_nonzero {op : Token.Operator} {x : Float}
    (h : ∀ y ∈ if op = .div then [x] else [], (y == 0.0) = false) (product : Float)
    (more : List Token) :
    quotient env op product x more = (products env (op.apply product x) more).progress := by
  apply if_neg
  rintro ⟨rfl, zero⟩
  rw [h x (by rw [if_pos rfl]; exact List.mem_singleton_self x)] at zero
  cases zero

namespace Grammar

mutual

theorem Expression.read (plain : Plain env.isLabel) (e : Expression env.isLabel)
    (clear : Clear env e.references (e.divisors env)) {more : List Token}
    (add : Past Token.additive? more) (mul : Past Token.multiplicative? more) :
    (expression env (e.tokens ++ more)).progress.result = .ok (e.value env, more) := by
  obtain ⟨first, rest⟩ := e
  obtain ⟨clearFirst, clearRest⟩ := clear_append.mp clear
  rw [Expression.tokens, List.append_assoc, progress_expression,
    Progress.result_andThen_of_ok (first.read plain clearFirst (rest.past mul))]
  exact rest.read plain clearRest (first.value env) add mul
termination_by structural e

theorem Summands.read (plain : Plain env.isLabel) (s : Summands env.isLabel)
    (clear : Clear env s.references (s.divisors env)) (total : Float) {more : List Token}
    (add : Past Token.additive? more) (mul : Past Token.multiplicative? more) :
    (sums env total (s.tokens ++ more)).progress.result = .ok (s.value env total, more) := by
  cases s with
  | none => exact congrArg Progress.result (sums_of_past add total)
  | more op additive summand rest =>
    obtain ⟨clearFirst, clearRest⟩ := clear_append.mp clear
    rw [Summands.tokens, List.cons_append, List.append_assoc, progress_sums_cons,
      additive?_token additive]
    dsimp only
    rw [Progress.result_andThen_of_ok (summand.read plain clearFirst (rest.past mul))]
    exact rest.read plain clearRest (op.apply total (summand.value env)) add mul
termination_by structural s

theorem Term.read (plain : Plain env.isLabel) (t : Term env.isLabel)
    (clear : Clear env t.references (t.divisors env)) {more : List Token}
    (mul : Past Token.multiplicative? more) :
    (term env (t.tokens ++ more)).progress.result = .ok (t.value env, more) := by
  obtain ⟨first, rest⟩ := t
  obtain ⟨clearFirst, clearRest⟩ := clear_append.mp clear
  rw [Term.tokens, List.append_assoc, progress_term,
    Progress.result_andThen_of_ok (first.read plain clearFirst)]
  exact rest.read plain clearRest (first.value env) mul
termination_by structural t

theorem Factors.read (plain : Plain env.isLabel) (s : Factors env.isLabel)
    (clear : Clear env s.references (s.divisors env)) (product : Float) {more : List Token}
    (mul : Past Token.multiplicative? more) :
    (products env product (s.tokens ++ more)).progress.result =
      .ok (s.value env product, more) := by
  cases s with
  | none => exact congrArg Progress.result (products_of_past mul product)
  | more op multiplicative operand rest =>
    obtain ⟨clearFirst, clearBehind⟩ := clear_append.mp clear
    have clearNext : Clear env ([] ++ rest.references)
        ((if op = .div then [operand.value env] else []) ++ rest.divisors env) := clearBehind
    obtain ⟨clearHere, clearRest⟩ := clear_append.mp clearNext
    rw [Factors.tokens, List.cons_append, List.append_assoc, progress_products_cons,
      multiplicative?_token multiplicative]
    dsimp only
    rw [Progress.result_andThen_of_ok (operand.read plain clearFirst),
      quotient_of_nonzero clearHere.nonzero]
    exact rest.read plain clearRest (op.apply product (operand.value env)) mul
termination_by structural s

theorem Factor.read (plain : Plain env.isLabel) (f : Factor env.isLabel)
    (clear : Clear env f.references (f.divisors env)) {more : List Token} :
    (factor env (f.tokens ++ more)).progress.result = .ok (f.value env, more) := by
  have opening : "(" ∈ symbols := by decide
  cases f with
  | parentheses inner =>
    rw [Factor.tokens, List.cons_append, List.append_assoc, List.singleton_append,
      progress_factor_open, Progress.result_andThen_of_ok
        (inner.read plain clear (past_cons rfl more) (past_cons rfl more))]
    exact congrArg Progress.result (if_pos rfl)
  | reference label known =>
    have resolved := clear.resolved label (List.mem_singleton_self label)
    rw [Factor.tokens, List.singleton_append,
      progress_factor_operand env (label_ne_symbol plain known opening), operandProgress,
      if_pos known, Environment.resolve_eq_ok_iff.mpr ⟨resolved, rfl⟩]
    rfl
  | number literal ordinary x reads =>
    rw [Factor.tokens, List.singleton_append,
      progress_factor_operand env (number_ne_symbol reads opening), operandProgress, ordinary,
      if_neg Bool.false_ne_true, reads]
    rfl
termination_by structural f

end

end Grammar

/-! What is read is a tree. -/

def ExpressionTree (env : Environment) (ts : List Token) : Prop :=
  ∀ x rest, (expression env ts).progress.result = .ok (x, rest) →
    ∃ e : Expression env.isLabel, e.tokens ++ rest = ts ∧ e.value env = x ∧
      Clear env e.references (e.divisors env)

def SumsTree (env : Environment) (total : Float) (ts : List Token) : Prop :=
  ∀ x rest, (sums env total ts).progress.result = .ok (x, rest) →
    ∃ s : Summands env.isLabel, s.tokens ++ rest = ts ∧ s.value env total = x ∧
      Clear env s.references (s.divisors env)

def TermTree (env : Environment) (ts : List Token) : Prop :=
  ∀ x rest, (term env ts).progress.result = .ok (x, rest) →
    ∃ t : Term env.isLabel, t.tokens ++ rest = ts ∧ t.value env = x ∧
      Clear env t.references (t.divisors env)

def ProductsTree (env : Environment) (product : Float) (ts : List Token) : Prop :=
  ∀ x rest, (products env product ts).progress.result = .ok (x, rest) →
    ∃ s : Factors env.isLabel, s.tokens ++ rest = ts ∧ s.value env product = x ∧
      Clear env s.references (s.divisors env)

def FactorTree (env : Environment) (ts : List Token) : Prop :=
  ∀ x rest, (factor env ts).progress.result = .ok (x, rest) →
    ∃ f : Factor env.isLabel, f.tokens ++ rest = ts ∧ f.value env = x ∧
      Clear env f.references (f.divisors env)

theorem expressionTree {ts : List Token} (inTerm : TermTree env ts)
    (inSums : ∀ x rest, rest.length < ts.length → SumsTree env x rest) :
    ExpressionTree env ts := by
  intro x rest h
  rw [progress_expression] at h
  obtain ⟨y, more, first, second⟩ := Progress.result_andThen_eq_ok h
  obtain ⟨s, rfl, rfl, clearBehind⟩ := inSums y more (Step.length_lt first) x rest second
  obtain ⟨t, rfl, rfl, clear⟩ := inTerm y _ first
  exact ⟨.mk t s, List.append_assoc _ _ _, rfl, clear_append.mpr ⟨clear, clearBehind⟩⟩

theorem sumsTree {total : Float} {ts : List Token}
    (inTerm : ∀ rest, rest.length < ts.length → TermTree env rest)
    (inSums : ∀ x rest, rest.length < ts.length → SumsTree env x rest) :
    SumsTree env total ts := by
  intro x rest h
  cases ts with
  | nil =>
    rw [progress_sums_nil] at h
    cases h
    exact ⟨.none, rfl, rfl, clear_nil⟩
  | cons t behind =>
    rw [progress_sums_cons] at h
    cases hop : Token.additive? t with
    | none =>
      rw [hop] at h
      cases h
      exact ⟨.none, rfl, rfl, clear_nil⟩
    | some op =>
      rw [hop] at h
      obtain ⟨rfl, additive⟩ := token_of_additive? hop
      obtain ⟨y, more, first, second⟩ := Progress.result_andThen_eq_ok h
      obtain ⟨s, rfl, rfl, clearBehind⟩ :=
        inSums _ more (Nat.lt_succ_of_lt (Step.length_lt first)) x rest second
      obtain ⟨t, rfl, rfl, clear⟩ := inTerm behind (Nat.lt_succ_self _) y _ first
      refine ⟨.more op additive t s, ?_, rfl, clear_append.mpr ⟨clear, clearBehind⟩⟩
      rw [Summands.tokens, List.cons_append, List.append_assoc]

theorem termTree {ts : List Token} (inFactor : FactorTree env ts)
    (inProducts : ∀ x rest, rest.length < ts.length → ProductsTree env x rest) :
    TermTree env ts := by
  intro x rest h
  rw [progress_term] at h
  obtain ⟨y, more, first, second⟩ := Progress.result_andThen_eq_ok h
  obtain ⟨s, rfl, rfl, clearBehind⟩ := inProducts y more (Step.length_lt first) x rest second
  obtain ⟨f, rfl, rfl, clear⟩ := inFactor y _ first
  exact ⟨.mk f s, List.append_assoc _ _ _, rfl, clear_append.mpr ⟨clear, clearBehind⟩⟩

theorem nonzero_of_quotient {op : Token.Operator} {product x : Float} {more : List Token}
    {r : Float × List Token} (h : (quotient env op product x more).result = .ok r) :
    (∀ y ∈ if op = .div then [x] else [], (y == 0.0) = false) ∧
      (products env (op.apply product x) more).progress.result = .ok r := by
  unfold quotient at h
  split at h
  · cases h
  · rename_i nonzero
    refine ⟨?_, h⟩
    intro y hy
    split at hy
    · rename_i division
      obtain rfl := List.mem_singleton.mp hy
      exact Bool.eq_false_iff.mpr fun zero => nonzero ⟨division, zero⟩
    · cases hy

theorem productsTree {product : Float} {ts : List Token}
    (inFactor : ∀ rest, rest.length < ts.length → FactorTree env rest)
    (inProducts : ∀ x rest, rest.length < ts.length → ProductsTree env x rest) :
    ProductsTree env product ts := by
  intro x rest h
  cases ts with
  | nil =>
    rw [progress_products_nil] at h
    cases h
    exact ⟨.none, rfl, rfl, clear_nil⟩
  | cons t behind =>
    rw [progress_products_cons] at h
    cases hop : Token.multiplicative? t with
    | none =>
      rw [hop] at h
      cases h
      exact ⟨.none, rfl, rfl, clear_nil⟩
    | some op =>
      rw [hop] at h
      obtain ⟨rfl, multiplicative⟩ := token_of_multiplicative? hop
      obtain ⟨y, more, first, second⟩ := Progress.result_andThen_eq_ok h
      obtain ⟨nonzero, second⟩ := nonzero_of_quotient second
      obtain ⟨s, rfl, rfl, clearBehind⟩ :=
        inProducts _ more (Nat.lt_succ_of_lt (Step.length_lt first)) x rest second
      obtain ⟨f, rfl, rfl, clear⟩ := inFactor behind (Nat.lt_succ_self _) y _ first
      have here : Clear env [] (if op = .div then [f.value env] else []) :=
        ⟨clear_nil.resolved, nonzero⟩
      refine ⟨.more op multiplicative f s, ?_, rfl,
        clear_append.mpr ⟨clear, clear_append.mpr ⟨here, clearBehind⟩⟩⟩
      rw [Factors.tokens, List.cons_append, List.append_assoc]

theorem eq_of_closing {x y : Float} {more rest : List Token}
    (h : (closing y more).result = .ok (x, rest)) : y = x ∧ more = ")" :: rest := by
  cases more with
  | nil => cases h
  | cons close more =>
    rw [closing] at h
    split at h
    · rename_i closed
      cases h
      exact ⟨rfl, closed ▸ rfl⟩
    · cases h

theorem tree_of_operand {t : Token} {behind rest : List Token} {x : Float}
    (h : (operandProgress env t behind).result = .ok (x, rest)) :
    rest = behind ∧ ∃ f : Factor env.isLabel, f.tokens = [t] ∧ f.value env = x ∧
      Clear env f.references (f.divisors env) := by
  unfold operandProgress at h
  split at h
  · rename_i known
    cases hr : env.resolve t with
    | error fault =>
      rw [hr] at h
      cases h
    | ok y =>
      rw [hr] at h
      cases h
      obtain ⟨resolved, rfl⟩ := Environment.resolve_eq_ok_iff.mp hr
      refine ⟨rfl, .reference t known, rfl, rfl, ?_, ?_⟩
      · intro label mem
        exact List.mem_singleton.mp mem ▸ resolved
      · intro y hy
        cases hy
  · rename_i ordinary
    cases hx : t.number? with
    | none =>
      rw [hx] at h
      cases h
    | some y =>
      rw [hx] at h
      cases h
      exact ⟨rfl, .number t (Bool.eq_false_iff.mpr ordinary) _ hx, rfl, rfl, clear_nil⟩

theorem factorTree {ts : List Token}
    (inExpression : ∀ rest, rest.length < ts.length → ExpressionTree env rest) :
    FactorTree env ts := by
  intro x rest h
  cases ts with
  | nil =>
    rw [progress_factor_nil] at h
    cases h
  | cons t behind =>
    by_cases opening : t = "("
    · subst opening
      rw [progress_factor_open] at h
      obtain ⟨y, more, first, second⟩ := Progress.result_andThen_eq_ok h
      obtain ⟨e, rfl, rfl, clear⟩ := inExpression behind (Nat.lt_succ_self _) y more first
      obtain ⟨rfl, rfl⟩ := eq_of_closing second
      refine ⟨.parentheses e, ?_, rfl, clear⟩
      rw [Factor.tokens, List.cons_append, List.append_assoc, List.singleton_append]
    · rw [progress_factor_operand env opening] at h
      obtain ⟨rfl, f, tokens, value, clear⟩ := tree_of_operand h
      exact ⟨f, by rw [tokens, List.singleton_append], value, clear⟩

theorem tree_of_progress (env : Environment) :
    (∀ ts, ExpressionTree env ts) ∧ (∀ total ts, SumsTree env total ts) ∧
      (∀ ts, TermTree env ts) ∧ (∀ product ts, ProductsTree env product ts) ∧
      ∀ ts, FactorTree env ts :=
  rules_induct (fun _ => expressionTree) (fun _ _ => sumsTree) (fun _ => termTree)
    (fun _ _ => productsTree) fun _ => factorTree

/-! Whole formulas. -/

theorem conclude_fault_eq_none {trailing : Bool} {p : Progress}
    (h : (conclude trailing p).outcome.fault = none) :
    trailing = false ∧ p.result = .ok ((conclude trailing p).outcome.result, []) := by
  obtain ⟨result, trace⟩ := p
  cases result with
  | error fault => cases h
  | ok r =>
    obtain ⟨x, rest⟩ := r
    cases rest with
    | cons t more => cases h
    | nil =>
      cases trailing with
      | true => cases h
      | false => exact ⟨rfl, rfl⟩

theorem conclude_of_ok {p : Progress} {x : Float} (h : p.result = .ok (x, [])) :
    (conclude false p).outcome = ⟨x, none⟩ := by
  rw [conclude, h]
  rfl

theorem withoutTrailing_eq_self {ts : List Token}
    (h : ts.getLast?.any Token.isOperator = false) : withoutTrailing ts = ts := by
  rw [withoutTrailing, h, if_neg Bool.false_ne_true]

theorem progress_of_fault_eq_none {ts : List Token} (h : (evaluate env ts).outcome.fault = none) :
    (expression env ts).progress.result = .ok ((evaluate env ts).outcome.result, []) := by
  by_cases empty : ts = []
  · subst empty
    cases h
  · rw [evaluate_of_ne_nil env empty] at h ⊢
    obtain ⟨trailing, result⟩ := conclude_fault_eq_none h
    rw [withoutTrailing_eq_self trailing] at result ⊢
    exact result

theorem evaluate_of_progress {ts : List Token} (closed : Closed ts) {x : Float}
    (h : (expression env ts).progress.result = .ok (x, [])) :
    (evaluate env ts).outcome = ⟨x, none⟩ := by
  obtain ⟨front, t, rfl, plain⟩ := closed
  have trailing : (front ++ [t]).getLast?.any Token.isOperator = false := by
    rw [List.getLast?_concat, Option.any_some, plain]
  have filled : front ++ [t] ≠ [] := List.append_ne_nil_of_right_ne_nil front (List.cons_ne_nil t [])
  rw [evaluate_of_ne_nil env filled, withoutTrailing_eq_self trailing, trailing]
  exact conclude_of_ok h

/-- Evaluation reports no fault for the formulas of the grammar whose references resolve and which
divide by no zero, and for no others. Its result is the value of the one tree that the formula
has. -/
theorem evaluate_grammar (env : Environment) (plain : Plain env.isLabel) (ts : List Token) :
    ((evaluate env ts).outcome.fault = none ↔
      ∃ e : Expression env.isLabel, e.tokens = ts ∧
        (∀ label ∈ e.references, env.Resolves label) ∧ ∀ x ∈ e.divisors env, (x == 0.0) = false) ∧
    (∀ e : Expression env.isLabel, e.tokens = ts → (evaluate env ts).outcome.fault = none →
      (evaluate env ts).outcome.result = e.value env) ∧
    ∀ e e' : Expression env.isLabel, e.tokens = ts → e'.tokens = ts → e = e' := by
  have unique : ∀ e e' : Expression env.isLabel, e.tokens = ts → e'.tokens = ts → e = e' := by
    intro e e' h h'
    have same : e.tokens ++ [] = e'.tokens ++ [] := by rw [h, h']
    exact (e.eq_of_tokens plain (past_nil _) (past_nil _) (past_nil _) (past_nil _) same).1
  refine ⟨⟨?_, ?_⟩, ?_, unique⟩
  · intro ok
    obtain ⟨e, tokens, _, clear⟩ :=
      (tree_of_progress env).1 ts _ [] (progress_of_fault_eq_none ok)
    rw [List.append_nil] at tokens
    exact ⟨e, tokens, clear.resolved, clear.nonzero⟩
  · rintro ⟨e, rfl, resolved, nonzero⟩
    have read := e.read plain ⟨resolved, nonzero⟩ (past_nil _) (past_nil _)
    rw [List.append_nil] at read
    rw [evaluate_of_progress (e.closed plain) read]
  · intro e tokens ok
    obtain ⟨e', tokens', value, _⟩ :=
      (tree_of_progress env).1 ts _ [] (progress_of_fault_eq_none ok)
    rw [List.append_nil] at tokens'
    rw [unique e e' tokens tokens', value]

/-- One cell that formulas can refer to. -/
def oneCell : Environment where
  isLabel t := t == "A1"
  read t := if t = "A1" then some ⟨2.0, none, true⟩ else none

def toCell : Term oneCell.isLabel := .mk (.reference "A1" rfl) .none

/-- The cell less itself, in parentheses. -/
def difference : Expression oneCell.isLabel :=
  .mk (.mk (.parentheses (.mk toCell (.more .sub rfl toCell .none))) .none) .none

theorem oneCell_plain : Plain oneCell.isLabel := by
  unfold Plain
  decide

theorem evaluate_grammar_of_difference :
    Plain oneCell.isLabel ∧ (evaluate oneCell ["(", "A1", "-", "A1", ")"]).outcome.fault = none ∧
      (evaluate oneCell ["(", "A1", "-", "A1", ")"]).outcome.result = 2.0 - 2.0 := by
  have resolved : ∀ label ∈ difference.references, oneCell.Resolves label := by
    intro label h
    have cell : label = "A1" := by
      rcases List.mem_cons.mp h with rfl | h
      · rfl
      · exact List.mem_singleton.mp h
    subst cell
    exact ⟨⟨2.0, none, true⟩, rfl, rfl, .inl rfl⟩
  have nonzero : ∀ x ∈ difference.divisors oneCell, (x == 0.0) = false := by
    intro x h
    cases h
  obtain ⟨derivable, value, _⟩ :=
    evaluate_grammar oneCell oneCell_plain ["(", "A1", "-", "A1", ")"]
  have ok := derivable.mpr ⟨difference, rfl, resolved, nonzero⟩
  exact ⟨oneCell_plain, ok, value difference rfl ok⟩

end FormulaSheet
