import FormulaSheet.Formula.Evaluation
/-!
The grammar rules as equations. What a rule gives, without the bound that its type carries, is its
progress: a value with the tokens behind it or a fault, and the operands met. Each rule hands its
progress on to the next, so that proofs follow one equation for each rule and one induction on the
number of tokens.
-/

namespace FormulaSheet

/-- What a grammar rule gives. -/
structure Progress where
  result : Except Fault (Float × List Token)
  trace : List Visit

namespace Progress

def value (x : Float) (rest : List Token) (trace : List Visit) : Progress := ⟨.ok (x, rest), trace⟩

def stop (fault : Fault) (trace : List Visit) : Progress := ⟨.error fault, trace⟩

/-- Goes on behind a value; a fault ends the reading. -/
def andThen (p : Progress) (next : Float → List Token → Progress) : Progress :=
  match p with
  | ⟨.error fault, trace⟩ => ⟨.error fault, trace⟩
  | ⟨.ok (x, rest), trace⟩ => ⟨(next x rest).result, trace ++ (next x rest).trace⟩

theorem andThen_value (x : Float) (rest : List Token) (trace : List Visit)
    (next : Float → List Token → Progress) :
    (value x rest trace).andThen next =
      ⟨(next x rest).result, trace ++ (next x rest).trace⟩ := rfl

theorem andThen_value_stop {x : Float} {rest : List Token} {next : Float → List Token → Progress}
    {fault : Fault} (h : next x rest = stop fault []) (trace : List Visit) :
    (value x rest trace).andThen next = stop fault trace := by
  rw [andThen_value, h]
  exact congrArg (Progress.mk _) (List.append_nil trace)

theorem andThen_value_value {x y : Float} {rest more : List Token}
    {next : Float → List Token → Progress} (h : next x rest = value y more [])
    (trace : List Visit) : (value x rest trace).andThen next = value y more trace := by
  rw [andThen_value, h]
  exact congrArg (Progress.mk _) (List.append_nil trace)

theorem result_andThen_eq_ok {p : Progress} {next : Float → List Token → Progress}
    {r : Float × List Token} (h : (p.andThen next).result = .ok r) :
    ∃ x rest, p.result = .ok (x, rest) ∧ (next x rest).result = .ok r := by
  obtain ⟨result, trace⟩ := p
  cases result with
  | error fault => cases h
  | ok first => exact ⟨first.1, first.2, rfl, h⟩

theorem result_andThen_of_ok {p : Progress} {next : Float → List Token → Progress} {x : Float}
    {rest : List Token} (h : p.result = .ok (x, rest)) :
    (p.andThen next).result = (next x rest).result := by
  obtain ⟨result, trace⟩ := p
  cases h
  rfl

theorem andThen_congr {p q : Progress} {next next' : Float → List Token → Progress} (h : p = q)
    (alike : ∀ x rest, q.result = .ok (x, rest) → next x rest = next' x rest) :
    p.andThen next = q.andThen next' := by
  subst h
  obtain ⟨result, trace⟩ := p
  cases result with
  | error fault => rfl
  | ok first =>
    have same := alike first.1 first.2 rfl
    simp only [andThen, same]

end Progress

def Step.progress {n : Nat} : Step n → Progress
  | .value x rest _ trace => .value x rest trace
  | .stop fault trace => .stop fault trace

theorem Step.progress_widen {m n : Nat} (h : m ≤ n) (s : Step m) :
    (s.widen h).progress = s.progress := by
  cases s <;> rfl

theorem Step.progress_after {n : Nat} (earlier : List Visit) (s : Step n) :
    (s.after earlier).progress = ⟨s.progress.result, earlier ++ s.progress.trace⟩ := by
  cases s <;> rfl

variable (env : Environment)

theorem progress_expression (ts : List Token) :
    (expression env ts).progress =
      (term env ts).progress.andThen fun x rest => (sums env x rest).progress := by
  rw [expression]
  cases term env ts with
  | stop fault trace => rfl
  | value x rest shorter trace =>
    simp only [Step.progress_after, Step.progress_widen]
    rfl

theorem progress_term (ts : List Token) :
    (term env ts).progress =
      (factor env ts).progress.andThen fun x rest => (products env x rest).progress := by
  rw [term]
  cases factor env ts with
  | stop fault trace => rfl
  | value x rest shorter trace =>
    simp only [Step.progress_after, Step.progress_widen]
    rfl

theorem progress_sums_nil (total : Float) :
    (sums env total []).progress = .value total [] [] := by
  rw [sums]
  rfl

theorem progress_sums_cons (total : Float) (t : Token) (rest : List Token) :
    (sums env total (t :: rest)).progress =
      match Token.additive? t with
      | none => .value total (t :: rest) []
      | some op =>
        (term env rest).progress.andThen fun x more =>
          (sums env (op.apply total x) more).progress := by
  rw [sums]
  cases Token.additive? t with
  | none => rfl
  | some op =>
    cases term env rest with
    | stop fault trace => rfl
    | value x more shorter trace =>
      simp only [Step.progress_after, Step.progress_widen]
      rfl

/-- What follows a factor that was read behind an operator. -/
def quotient (op : Token.Operator) (product x : Float) (more : List Token) : Progress :=
  if op = .div ∧ x == 0.0 then .stop .divideByZero []
  else (products env (op.apply product x) more).progress

theorem progress_products_nil (product : Float) :
    (products env product []).progress = .value product [] [] := by
  rw [products]
  rfl

theorem progress_products_cons (product : Float) (t : Token) (rest : List Token) :
    (products env product (t :: rest)).progress =
      match Token.multiplicative? t with
      | none => .value product (t :: rest) []
      | some op =>
        (factor env rest).progress.andThen fun x more => quotient env op product x more := by
  rw [products]
  cases Token.multiplicative? t with
  | none => rfl
  | some op =>
    cases factor env rest with
    | stop fault trace => rfl
    | value x more shorter trace =>
      by_cases zero : op = .div ∧ x == 0.0
      · simp only [if_pos zero]
        exact (Progress.andThen_value_stop (if_pos zero) trace).symm
      · have go : quotient env op product x more =
            (products env (op.apply product x) more).progress := if_neg zero
        simp only [if_neg zero, Step.progress_after, Step.progress_widen, ← go]
        rfl

/-- What follows the expression inside an open parenthesis. -/
def closing (x : Float) : List Token → Progress
  | [] => .stop .missingParentheses []
  | close :: more => if close = ")" then .value x more [] else .stop .missingParentheses []

theorem progress_factor_nil : (factor env []).progress = .stop .invalidNumber [] := by
  rw [factor, operand]
  rfl

theorem progress_factor_open (rest : List Token) :
    (factor env ("(" :: rest)).progress = (expression env rest).progress.andThen closing := by
  rw [factor, if_pos rfl]
  cases expression env rest with
  | stop fault trace => rfl
  | value x more shorter trace =>
    cases more with
    | nil => exact (Progress.andThen_value_stop rfl trace).symm
    | cons close more =>
      by_cases closed : close = ")"
      · simp only [if_pos closed]
        exact (Progress.andThen_value_value (if_pos closed) trace).symm
      · simp only [if_neg closed]
        exact (Progress.andThen_value_stop (if_neg closed) trace).symm

def operandProgress (t : Token) (rest : List Token) : Progress :=
  if env.isLabel t then
    match env.resolve t with
    | .ok x => .value x rest [.reference t (.ok x)]
    | .error fault => .stop fault [.reference t (.error fault)]
  else
    match t.number? with
    | some x => .value x rest [.number x]
    | none => .stop .invalidNumber []

theorem progress_factor_operand {t : Token} (h : t ≠ "(") (rest : List Token) :
    (factor env (t :: rest)).progress = operandProgress env t rest := by
  rw [factor, if_neg h, operand, operandProgress]
  split
  · cases env.resolve t <;> rfl
  · cases t.number? <;> rfl

theorem Step.length_lt {n : Nat} {s : Step n} {x : Float} {rest : List Token}
    (h : s.progress.result = .ok (x, rest)) : rest.length < n := by
  cases s with
  | stop fault trace => cases h
  | value y more shorter trace =>
    cases h
    exact shorter

def conclude (trailing : Bool) (p : Progress) : Evaluation :=
  match p.result with
  | .ok (x, []) => ⟨⟨x, if trailing then some .invalidFormula else none⟩, p.trace⟩
  | .ok (x, _ :: _) => ⟨⟨advisory x p.trace, some .invalidFormula⟩, p.trace⟩
  | .error fault =>
    let result := if fault = .divideByZero then 1.0 / 0.0 else 0.0
    ⟨⟨advisory result p.trace, some fault⟩, p.trace⟩

/-- The tokens that are left when an operator at the end is set aside. -/
def withoutTrailing (tokens : List Token) : List Token :=
  if tokens.getLast?.any Token.isOperator then tokens.dropLast else tokens

theorem evaluate_of_ne_nil {tokens : List Token} (h : tokens ≠ []) :
    evaluate env tokens =
      conclude (tokens.getLast?.any Token.isOperator)
        (expression env (withoutTrailing tokens)).progress := by
  have filled : tokens.isEmpty = false := by
    cases tokens with
    | nil => exact absurd rfl h
    | cons t rest => rfl
  simp only [evaluate, filled, withoutTrailing, Bool.false_eq_true, if_false]
  cases expression env
      (if tokens.getLast?.any Token.isOperator = true then tokens.dropLast else tokens) with
  | stop fault trace => rfl
  | value x rest shorter trace => cases rest <;> rfl

/-- Induction on the number of tokens along the calls of the rules. -/
theorem rules_induct {inExpression inTerm inFactor : List Token → Prop}
    {inSums inProducts : Float → List Token → Prop}
    (expression : ∀ ts, inTerm ts → (∀ x rest, rest.length < ts.length → inSums x rest) →
      inExpression ts)
    (sums : ∀ total ts, (∀ rest, rest.length < ts.length → inTerm rest) →
      (∀ x rest, rest.length < ts.length → inSums x rest) → inSums total ts)
    (term : ∀ ts, inFactor ts → (∀ x rest, rest.length < ts.length → inProducts x rest) →
      inTerm ts)
    (products : ∀ product ts, (∀ rest, rest.length < ts.length → inFactor rest) →
      (∀ x rest, rest.length < ts.length → inProducts x rest) → inProducts product ts)
    (factor : ∀ ts, (∀ rest, rest.length < ts.length → inExpression rest) → inFactor ts) :
    (∀ ts, inExpression ts) ∧ (∀ x ts, inSums x ts) ∧ (∀ ts, inTerm ts) ∧
      (∀ x ts, inProducts x ts) ∧ (∀ ts, inFactor ts) := by
  have all : ∀ ts, inExpression ts ∧ (∀ x, inSums x ts) ∧ inTerm ts ∧ (∀ x, inProducts x ts) ∧
      inFactor ts := by
    intro ts
    induction hn : ts.length using Nat.strongRecOn generalizing ts with
    | ind n ih =>
      have shorter : ∀ rest : List Token, rest.length < ts.length → inExpression rest ∧
          (∀ x, inSums x rest) ∧ inTerm rest ∧ (∀ x, inProducts x rest) ∧ inFactor rest :=
        fun rest h => ih rest.length (hn ▸ h) rest rfl
      have inF : inFactor ts := factor ts fun rest h => (shorter rest h).1
      have inP : ∀ x, inProducts x ts := fun x =>
        products x ts (fun rest h => (shorter rest h).2.2.2.2) fun y rest h =>
          (shorter rest h).2.2.2.1 y
      have inT : inTerm ts := term ts inF fun y rest h => (shorter rest h).2.2.2.1 y
      have inS : ∀ x, inSums x ts := fun x =>
        sums x ts (fun rest h => (shorter rest h).2.2.1) fun y rest h => (shorter rest h).2.1 y
      have inE : inExpression ts := expression ts inT fun y rest h => (shorter rest h).2.1 y
      exact ⟨inE, inS, inT, inP, inF⟩
  exact ⟨fun ts => (all ts).1, fun x ts => (all ts).2.1 x, fun ts => (all ts).2.2.1,
    fun x ts => (all ts).2.2.2.1 x, fun ts => (all ts).2.2.2.2⟩

end FormulaSheet
