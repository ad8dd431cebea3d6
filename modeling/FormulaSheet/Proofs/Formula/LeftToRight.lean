import FormulaSheet.Proofs.Formula.Parsing
/-!
A formula read once from left to right, a token at a time. In front of the place reached stand the
sums and products that wait for another operand, those of one depth of parentheses together. The
first fault stops the reading, so the tokens behind it are never looked at. The grammar rules give
what this reading gives.
-/

namespace FormulaSheet

/-- A value with the operator behind it. -/
structure Waiting where
  value : Float
  op : Token.Operator
deriving DecidableEq

/-- What waits for an operand between a parenthesis, or the front of the formula, and the place
reached. -/
structure Depth where
  sum : Option Waiting := none
  product : Option Waiting := none
deriving DecidableEq

inductive Standing
  | operandDue (depth : Depth) (outer : List Depth)
  /-- The product is complete so far; more of it may follow. -/
  | behindFactor (sum : Option Waiting) (product : Float) (outer : List Depth)
deriving DecidableEq

/-- A reading under way, with the operand that it read last. -/
structure Reader where
  standing : Standing := .operandDue {} []
  last : Option Float := none
deriving DecidableEq

/-- What a fault leaves: the value of the formula if that was complete, else zero, and the operand
read last. -/
structure Stop where
  fault : Fault
  value : Float
  last : Option Float
deriving DecidableEq

def Stop.outcome (stop : Stop) : Outcome :=
  let offered := if stop.fault = .divideByZero then 1.0 / 0.0 else stop.value
  ⟨if offered == 0.0 then stop.last.getD offered else offered, some stop.fault⟩

def combine : Option Waiting → Float → Float
  | none, x => x
  | some waiting, x => waiting.op.apply waiting.value x

def Depth.divides (depth : Depth) : Bool := depth.product.any fun waiting => waiting.op = .div

namespace Reader

/-- A factor is complete; a divisor is compared with zero at once. -/
def arrive (x : Float) (depth : Depth) (outer : List Depth) (last : Option Float) :
    Except Stop Reader :=
  if depth.divides ∧ x == 0.0 then .error ⟨.divideByZero, 0.0, last⟩
  else .ok ⟨.behindFactor depth.sum (combine depth.product x) outer, last⟩

/-- An expression is complete, and the next token is no operator. -/
def close (x : Float) (last : Option Float) (t : Token) : List Depth → Except Stop Reader
  | [] => .error ⟨.invalidFormula, x, last⟩
  | depth :: outer =>
    if t = ")" then arrive x depth outer last else .error ⟨.missingParentheses, 0.0, last⟩

/-- An expression is complete, and there are no more tokens. -/
def conclude (x : Float) (last : Option Float) : List Depth → Except Stop Float
  | [] => .ok x
  | _ :: _ => .error ⟨.missingParentheses, 0.0, last⟩

variable (env : Environment)

def operandValue (t : Token) : Except Fault Float :=
  if env.isLabel t then env.resolve t
  else
    match t.number? with
    | some x => .ok x
    | none => .error .invalidNumber

/-- Reads one token. -/
def step : Reader → Token → Except Stop Reader
  | ⟨.operandDue depth outer, last⟩, t =>
    if t = "(" then .ok ⟨.operandDue {} (depth :: outer), last⟩
    else
      match operandValue env t with
      | .error fault => .error ⟨fault, 0.0, last⟩
      | .ok x => arrive x depth outer (some x)
  | ⟨.behindFactor sum product outer, last⟩, t =>
    match Token.multiplicative? t with
    | some op => .ok ⟨.operandDue ⟨sum, some ⟨product, op⟩⟩ outer, last⟩
    | none =>
      match Token.additive? t with
      | some op => .ok ⟨.operandDue ⟨some ⟨combine sum product, op⟩, none⟩ outer, last⟩
      | none => close (combine sum product) last t outer

/-- What there is when the tokens have run out. -/
def finish : Reader → Except Stop Float
  | ⟨.operandDue _ _, last⟩ => .error ⟨.invalidNumber, 0.0, last⟩
  | ⟨.behindFactor sum product outer, last⟩ => conclude (combine sum product) last outer

def advance (r : Reader) (ts : List Token) : Except Stop Reader := ts.foldlM (step env) r

def read (r : Reader) (ts : List Token) : Except Stop Float := (r.advance env ts).bind finish

theorem advance_append (r : Reader) (front behind : List Token) :
    r.advance env (front ++ behind) = (r.advance env front).bind (·.advance env behind) :=
  List.foldlM_append

theorem advance_singleton (r : Reader) (t : Token) : r.advance env [t] = r.step env t := by
  simp only [advance, List.foldlM_cons, List.foldlM_nil, bind_pure]

theorem read_cons (r : Reader) (t : Token) (ts : List Token) :
    r.read env (t :: ts) = (r.step env t).bind (·.read env ts) := by
  rw [read, advance, List.foldlM_cons]
  cases r.step env t with
  | error stop => rfl
  | ok r' => rfl

theorem read_append (r : Reader) (front behind : List Token) :
    r.read env (front ++ behind) = (r.advance env front).bind (·.read env behind) := by
  rw [read, advance_append]
  cases r.advance env front with
  | error stop => rfl
  | ok r' => rfl

/-- Once the reading has stopped, what follows does not matter. -/
theorem read_of_stopped {env : Environment} {r : Reader} {front : List Token} {stop : Stop}
    (stopped : r.advance env front = .error stop) (behind : List Token) :
    r.read env (front ++ behind) = .error stop := by
  rw [read_append, stopped]
  rfl

end Reader

/-- What a reading comes to, with the operands that it meets. -/
structure Watched where
  met : List Visit
  read : Except Stop Float

/-- The same reading, behind earlier operands. -/
def Watched.behind (earlier : List Visit) (w : Watched) : Watched := ⟨earlier ++ w.met, w.read⟩

theorem Watched.behind_nil (w : Watched) : w.behind [] = w := rfl

theorem Watched.behind_behind (earlier later : List Visit) (w : Watched) :
    (w.behind later).behind earlier = w.behind (earlier ++ later) := by
  simp only [behind, List.append_assoc]

namespace Reader

/-- The operand that a token is taken for, where one is due. -/
def visits (env : Environment) : Reader → Token → List Visit
  | ⟨.operandDue _ _, _⟩, t =>
    if t = "(" then []
    else if env.isLabel t then [.reference t (env.resolve t)]
    else (t.number?.map Visit.number).toList
  | ⟨.behindFactor _ _ _, _⟩, _ => []

def watch (env : Environment) : Reader → List Token → Watched
  | r, [] => ⟨[], r.finish⟩
  | r, t :: rest =>
    match r.step env t with
    | .error stop => ⟨r.visits env t, .error stop⟩
    | .ok r' => (watch env r' rest).behind (r.visits env t)

/-- A reading that goes on unless it has stopped. -/
def proceed (env : Environment) (r : Except Stop Reader) (ts : List Token) : Watched :=
  match r with
  | .error stop => ⟨[], .error stop⟩
  | .ok r => r.watch env ts

variable {env : Environment}

theorem watch_cons (r : Reader) (t : Token) (rest : List Token) :
    r.watch env (t :: rest) = (proceed env (r.step env t) rest).behind (r.visits env t) := by
  rw [watch]
  cases r.step env t with
  | error stop => simp only [proceed, Watched.behind, List.append_nil]
  | ok r' => rfl

theorem read_watch (r : Reader) (ts : List Token) : (r.watch env ts).read = r.read env ts := by
  induction ts generalizing r with
  | nil => rfl
  | cons t rest ih =>
    rw [watch_cons, read_cons]
    cases r.step env t with
    | error stop => rfl
    | ok r' => exact ih r'

theorem read_proceed (r : Except Stop Reader) (ts : List Token) :
    (proceed env r ts).read = r.bind (·.read env ts) := by
  cases r with
  | error stop => rfl
  | ok r => exact read_watch r ts

end Reader

/-! The grammar rules against the reading. -/

def lastOf (last : Option Float) (trace : List Visit) : Option Float :=
  (trace.filterMap Visit.value?).getLast?.or last

theorem lastOf_append (last : Option Float) (trace more : List Visit) :
    lastOf last (trace ++ more) = lastOf (lastOf last trace) more := by
  simp only [lastOf, List.filterMap_append, List.getLast?_append, Option.or_assoc]

/-- A rule's progress, and behind its value a reading that goes on. -/
def Progress.resume (p : Progress) (last : Option Float)
    (next : Float → List Token → Option Float → Except Stop Float) : Except Stop Float :=
  match p.result with
  | .error fault => .error ⟨fault, 0.0, lastOf last p.trace⟩
  | .ok (x, rest) => next x rest (lastOf last p.trace)

/-- The same, with the operands that are met. -/
def Progress.watch (p : Progress) (last : Option Float)
    (next : Float → List Token → Option Float → Watched) : Watched :=
  match p.result with
  | .error fault => ⟨p.trace, .error ⟨fault, 0.0, lastOf last p.trace⟩⟩
  | .ok (x, rest) => (next x rest (lastOf last p.trace)).behind p.trace

namespace Progress

variable {last : Option Float} {next next' : Float → List Token → Option Float → Watched}

theorem read_watch (p : Progress) :
    (p.watch last next).read = p.resume last fun x rest last => (next x rest last).read := by
  obtain ⟨result, trace⟩ := p
  cases result with
  | error fault => rfl
  | ok first => rfl

theorem watch_value (x : Float) (rest : List Token) :
    (value x rest []).watch last next = next x rest last := rfl

theorem watch_stop (fault : Fault) :
    (stop fault []).watch last next = ⟨[], .error ⟨fault, 0.0, last⟩⟩ := rfl

theorem watch_andThen (p : Progress) (q : Float → List Token → Progress) :
    (p.andThen q).watch last next =
      p.watch last fun x rest last => (q x rest).watch last next := by
  obtain ⟨result, trace⟩ := p
  cases result with
  | error fault => rfl
  | ok first =>
    simp only [andThen, watch, lastOf_append]
    cases (q first.1 first.2).result with
    | error fault => rfl
    | ok second => exact (Watched.behind_behind _ _ _).symm

theorem watch_congr {p : Progress}
    (alike : ∀ x rest last, p.result = .ok (x, rest) → next x rest last = next' x rest last) :
    p.watch last next = p.watch last next' := by
  obtain ⟨result, trace⟩ := p
  cases result with
  | error fault => rfl
  | ok first => exact congrArg (Watched.behind trace) (alike first.1 first.2 _ rfl)

end Progress

namespace Reader

variable {env : Environment}

/-- What follows a complete expression; no operator stands next. -/
def beyond (env : Environment) (outer : List Depth) (x : Float) (ts : List Token)
    (last : Option Float) : Except Stop Float :=
  match ts with
  | [] => conclude x last outer
  | t :: rest => (close x last t outer).bind (·.read env rest)

def watchBeyond (env : Environment) (outer : List Depth) (x : Float) (ts : List Token)
    (last : Option Float) : Watched :=
  match ts with
  | [] => ⟨[], conclude x last outer⟩
  | t :: rest => proceed env (close x last t outer) rest

theorem read_watchBeyond (outer : List Depth) (x : Float) (ts : List Token)
    (last : Option Float) : (watchBeyond env outer x ts last).read = beyond env outer x ts last := by
  cases ts with
  | nil => rfl
  | cons t rest => exact read_proceed _ rest

def FactorWatched (env : Environment) (ts : List Token) : Prop :=
  ∀ depth outer last, watch env ⟨.operandDue depth outer, last⟩ ts =
    (factor env ts).progress.watch last fun x rest last =>
      proceed env (arrive x depth outer last) rest

def BehindWatched (env : Environment) (ts : List Token) : Prop :=
  ∀ sum product outer last, watch env ⟨.behindFactor sum product outer, last⟩ ts =
    (products env product ts).progress.watch last fun x rest last =>
      (sums env (combine sum x) rest).progress.watch last (watchBeyond env outer)

def ExpressionWatched (env : Environment) (ts : List Token) : Prop :=
  ∀ outer last, watch env ⟨.operandDue {} outer, last⟩ ts =
    (expression env ts).progress.watch last (watchBeyond env outer)

theorem arrive_of_not_divides {depth : Depth} (h : depth.divides = false) (x : Float)
    (outer : List Depth) (last : Option Float) :
    arrive x depth outer last = .ok ⟨.behindFactor depth.sum (combine depth.product x) outer, last⟩ := by
  rw [arrive, h]
  exact if_neg (fun zero => Bool.false_ne_true zero.1)

theorem expressionWatched {ts : List Token} (inFactor : FactorWatched env ts)
    (behind : ∀ rest, rest.length < ts.length → BehindWatched env rest) :
    ExpressionWatched env ts := by
  intro outer last
  rw [inFactor {} outer last, progress_expression, progress_term, Progress.watch_andThen,
    Progress.watch_andThen]
  apply Progress.watch_congr
  intro x rest last h
  rw [arrive_of_not_divides rfl]
  exact behind rest (Step.length_lt h) none x outer last

theorem factorWatched {ts : List Token}
    (inExpression : ∀ rest, rest.length < ts.length → ExpressionWatched env rest) :
    FactorWatched env ts := by
  intro depth outer last
  cases ts with
  | nil =>
    rw [progress_factor_nil, Progress.watch_stop]
    rfl
  | cons t rest =>
    rw [watch_cons]
    by_cases opening : t = "("
    · subst opening
      have entered := inExpression rest (Nat.lt_succ_self _) (depth :: outer) last
      rw [progress_factor_open, Progress.watch_andThen, step, visits, if_pos rfl, if_pos rfl,
        Watched.behind_nil]
      refine entered.trans (Progress.watch_congr ?_)
      intro x more last _
      cases more with
      | nil => rfl
      | cons t more =>
        by_cases closed : t = ")"
        · rw [watchBeyond, close, closing, if_pos closed, if_pos closed, Progress.watch_value]
        · rw [watchBeyond, close, closing, if_neg closed, if_neg closed, Progress.watch_stop]
          rfl
    · rw [progress_factor_operand env opening, step, visits, if_neg opening, if_neg opening,
        operandValue, operandProgress]
      by_cases label : env.isLabel t = true
      · rw [if_pos label, if_pos label, if_pos label]
        cases env.resolve t with
        | error fault => rfl
        | ok x => rfl
      · rw [if_neg label, if_neg label, if_neg label]
        cases t.number? with
        | none => rfl
        | some x => rfl

theorem arrive_behind (op : Token.Operator) (x product : Float) (sum : Option Waiting)
    (outer : List Depth) (last : Option Float) :
    arrive x ⟨sum, some ⟨product, op⟩⟩ outer last =
      if op = .div ∧ x == 0.0 then .error ⟨.divideByZero, 0.0, last⟩
      else .ok ⟨.behindFactor sum (op.apply product x) outer, last⟩ := by
  simp only [arrive, Depth.divides, Option.any_some, decide_eq_true_eq, combine]

theorem behindWatched {ts : List Token}
    (inFactor : ∀ rest, rest.length < ts.length → FactorWatched env rest)
    (behind : ∀ rest, rest.length < ts.length → BehindWatched env rest) :
    BehindWatched env ts := by
  intro sum product outer last
  cases ts with
  | nil =>
    rw [progress_products_nil, Progress.watch_value, progress_sums_nil, Progress.watch_value]
    rfl
  | cons t rest =>
    rw [watch_cons, step, visits, Watched.behind_nil, progress_products_cons]
    cases Token.multiplicative? t with
    | some op =>
      -- another factor of the product
      dsimp only
      refine (inFactor rest (Nat.lt_succ_self _) _ outer last).trans ?_
      rw [Progress.watch_andThen]
      apply Progress.watch_congr
      intro x more last h
      rw [arrive_behind, quotient]
      by_cases zero : op = .div ∧ (x == 0.0) = true
      · rw [if_pos zero, if_pos zero, Progress.watch_stop]
        rfl
      · rw [if_neg zero, if_neg zero]
        exact behind more (Nat.lt_succ_of_lt (Step.length_lt h)) sum _ outer last
    | none =>
      dsimp only
      rw [Progress.watch_value, progress_sums_cons]
      cases Token.additive? t with
      | some op =>
        -- the product becomes a summand, and another one begins
        dsimp only
        refine (inFactor rest (Nat.lt_succ_self _) _ outer last).trans ?_
        rw [Progress.watch_andThen, progress_term, Progress.watch_andThen]
        apply Progress.watch_congr
        intro x more last h
        rw [arrive_of_not_divides rfl]
        exact behind more (Nat.lt_succ_of_lt (Step.length_lt h)) _ x outer last
      | none => rfl

theorem watch_progress (env : Environment) (ts : List Token) :
    FactorWatched env ts ∧ BehindWatched env ts ∧ ExpressionWatched env ts := by
  induction hn : ts.length using Nat.strongRecOn generalizing ts with
  | ind n ih =>
    have shorter : ∀ rest : List Token, rest.length < ts.length →
        FactorWatched env rest ∧ BehindWatched env rest ∧ ExpressionWatched env rest :=
      fun rest h => ih rest.length (hn ▸ h) rest rfl
    have inFactor : FactorWatched env ts := factorWatched fun rest h => (shorter rest h).2.2
    have behind : BehindWatched env ts :=
      behindWatched (fun rest h => (shorter rest h).1) fun rest h => (shorter rest h).2.1
    exact ⟨inFactor, behind, expressionWatched inFactor fun rest h => (shorter rest h).2.1⟩

def FactorRead (env : Environment) (ts : List Token) : Prop :=
  ∀ depth outer last, read env ⟨.operandDue depth outer, last⟩ ts =
    (factor env ts).progress.resume last fun x rest last =>
      (arrive x depth outer last).bind (·.read env rest)

def BehindRead (env : Environment) (ts : List Token) : Prop :=
  ∀ sum product outer last, read env ⟨.behindFactor sum product outer, last⟩ ts =
    (products env product ts).progress.resume last fun x rest last =>
      (sums env (combine sum x) rest).progress.resume last (beyond env outer)

def ExpressionRead (env : Environment) (ts : List Token) : Prop :=
  ∀ outer last, read env ⟨.operandDue {} outer, last⟩ ts =
    (expression env ts).progress.resume last (beyond env outer)

theorem read_progress (env : Environment) (ts : List Token) :
    FactorRead env ts ∧ BehindRead env ts ∧ ExpressionRead env ts := by
  obtain ⟨inFactor, behind, inExpression⟩ := watch_progress env ts
  refine ⟨?_, ?_, ?_⟩
  · intro depth outer last
    rw [← read_watch, inFactor, Progress.read_watch]
    simp only [read_proceed]
  · intro sum product outer last
    rw [← read_watch, behind, Progress.read_watch]
    simp only [Progress.read_watch, read_watchBeyond]
  · intro outer last
    rw [← read_watch, inExpression, Progress.read_watch]
    simp only [read_watchBeyond]

end Reader

/-! Whole formulas. -/

/-- The outcome of a reading, behind which an operator may have been set aside. -/
def settle (trailing : Bool) : Except Stop Float → Outcome
  | .ok x => ⟨x, if trailing then some .invalidFormula else none⟩
  | .error stop => stop.outcome

theorem outcome_conclude (env : Environment) (trailing : Bool) (p : Progress) :
    (conclude trailing p).outcome = settle trailing (p.resume none (Reader.beyond env [])) := by
  obtain ⟨result, trace⟩ := p
  have last : lastOf none trace = (trace.filterMap Visit.value?).getLast? := Option.or_none
  cases result with
  | error fault => simp only [conclude, Progress.resume, settle, Stop.outcome, advisory, last]
  | ok first =>
    obtain ⟨x, rest⟩ := first
    cases rest with
    | nil => rfl
    | cons t rest =>
      simp only [conclude, Progress.resume, Reader.beyond, Reader.close, last]
      rfl

theorem outcome_evaluate (env : Environment) {tokens : List Token} (h : tokens ≠ []) :
    (evaluate env tokens).outcome = settle (tokens.getLast?.any Token.isOperator)
      (Reader.read env {} (withoutTrailing tokens)) := by
  rw [evaluate_of_ne_nil env h, outcome_conclude env]
  exact congrArg _ ((Reader.read_progress env _).2.2 [] none).symm

theorem read_of_fault_eq_none {env : Environment} {ts : List Token}
    (h : (evaluate env ts).outcome.fault = none) :
    Reader.read env {} ts = .ok (evaluate env ts).outcome.result := by
  have whole := (Reader.read_progress env ts).2.2 [] none
  rw [Progress.resume, progress_of_fault_eq_none h] at whole
  exact whole

/-! Operators at the end. -/

namespace Reader

/-- No operator is taken for a label that has a value. -/
def OperatorsApart (env : Environment) : Prop :=
  ∀ t, Token.isOperator t = true → ∃ fault, operandValue env t = .error fault

theorem mem_symbols_of_isOperator {t : Token} (h : Token.isOperator t = true) :
    t ∈ Grammar.symbols := by
  by_cases mem : t ∈ Grammar.symbols
  · exact mem
  · rw [Grammar.isOperator_eq_false mem] at h
    cases h

theorem operandValue_of_plain {t : Token} (h : Token.isOperator t = true)
    (plain : env.isLabel t = false) : operandValue env t = .error .invalidNumber := by
  rw [operandValue, plain, if_neg Bool.false_ne_true,
    Grammar.number?_symbol (mem_symbols_of_isOperator h)]

theorem step_due_of_error {t : Token} {fault : Fault} (h : Token.isOperator t = true)
    (unresolved : operandValue env t = .error fault) (depth : Depth) (outer : List Depth)
    (last : Option Float) :
    step env ⟨.operandDue depth outer, last⟩ t = .error ⟨fault, 0.0, last⟩ := by
  have operator : t ≠ "(" := by
    rintro rfl
    exact absurd h (by decide)
  rw [step, if_neg operator, unresolved]

theorem step_behind_of_operator (env : Environment) {t : Token}
    (h : Token.isOperator t = true) (sum : Option Waiting)
    (product : Float) (outer : List Depth) (last : Option Float) :
    ∃ depth, step env ⟨.behindFactor sum product outer, last⟩ t =
      .ok ⟨.operandDue depth outer, last⟩ := by
  rw [step]
  cases hm : Token.multiplicative? t with
  | some op => exact ⟨_, rfl⟩
  | none =>
    cases ha : Token.additive? t with
    | some op => exact ⟨_, rfl⟩
    | none =>
      rw [Token.isOperator, hm, ha] at h
      cases h

/-- A formula that ends with an operator has no value. -/
theorem isOperator_eq_false_of_read (apart : OperatorsApart env) {r : Reader} {front : List Token}
    {t : Token} {x : Float} (h : r.read env (front ++ [t]) = .ok x) :
    Token.isOperator t = false := by
  apply Bool.eq_false_iff.mpr
  intro operator
  rw [read_append] at h
  cases hr : r.advance env front with
  | error stop =>
    rw [hr] at h
    cases h
  | ok r' =>
    obtain ⟨standing, last⟩ := r'
    rw [hr, Except.bind, read_cons] at h
    cases standing with
    | operandDue depth outer =>
      obtain ⟨fault, unresolved⟩ := apart t operator
      rw [step_due_of_error operator unresolved] at h
      cases h
    | behindFactor sum product outer =>
      obtain ⟨depth, stepped⟩ := step_behind_of_operator env operator sum product outer last
      rw [stepped] at h
      cases h

/-- At an operator a reading can only stop for want of an operand, which the end is too. -/
theorem read_of_stopped_at_operator {r : Reader} {front : List Token} {t : Token} {stop : Stop}
    (operator : Token.isOperator t = true) (plain : env.isLabel t = false)
    (stopped : r.advance env (front ++ [t]) = .error stop) : r.read env front = .error stop := by
  rw [advance_append] at stopped
  rw [read]
  cases hr : r.advance env front with
  | error earlier =>
    rw [hr] at stopped
    cases stopped
    rfl
  | ok r' =>
    obtain ⟨standing, last⟩ := r'
    rw [hr, Except.bind, advance_singleton] at stopped
    cases standing with
    | operandDue depth outer =>
      rw [step_due_of_error operator (operandValue_of_plain operator plain)] at stopped
      cases stopped
      rfl
    | behindFactor sum product outer =>
      obtain ⟨depth, stepped⟩ := step_behind_of_operator env operator sum product outer last
      rw [stepped] at stopped
      cases stopped

end Reader

theorem withoutTrailing_append_singleton (front : List Token) (t : Token) :
    withoutTrailing (front ++ [t]) = if Token.isOperator t then front else front ++ [t] := by
  rw [withoutTrailing, List.getLast?_concat, Option.any_some, List.dropLast_concat]

/-- A formula of one operand has its value, or its fault with no other operand to offer. -/
theorem outcome_evaluate_operand (env : Environment) {t : Token} (plain : t ∉ Grammar.symbols) :
    (evaluate env [t]).outcome =
      settle false ((Reader.operandValue env t).mapError fun fault => ⟨fault, 0.0, none⟩) := by
  have operator := Grammar.isOperator_eq_false plain
  have body : withoutTrailing [t] = [t] := by
    have whole := withoutTrailing_append_singleton [] t
    rwa [operator] at whole
  have opening : t ≠ "(" := by
    rintro rfl
    exact plain (by decide)
  rw [outcome_evaluate env (List.cons_ne_nil t []), body, List.getLast?_singleton, Option.any_some,
    operator, Reader.read_cons, Reader.step, if_neg opening]
  cases Reader.operandValue env t <;> rfl

end FormulaSheet
