import FormulaSheet.Formula.Fault
/-!
Evaluation of a token list by recursive descent:

    Expression := Term (('+' | '-') Term)*
    Term       := Factor (('*' | '/') Factor)*
    Factor     := '(' Expression ')' | operand

An operand is a token that the environment takes for a label, else a number. Every rule either
yields a value and the tokens behind it, or stops at the first fault; there is no second attempt.
Evaluation reads cells and changes none: it keeps a trace of the operands it met, from which a
sheet learns which labels were looked up. How a stopped evaluation still offers a number is said at
`evaluate`.
-/

namespace FormulaSheet

/-- What a reference shows of a cell. -/
structure Reading where
  value : Float
  fault : Option Fault
  /-- Whether the cell has a formula. -/
  filled : Bool

/-- The cells that formulas can refer to. -/
@[ext]
structure Environment where
  isLabel : Token → Bool
  /-- The cell of a label; none if no cell can have it. -/
  read : Token → Option Reading

/-- The value of a reference. A fault of the cell is passed on, except that it is empty; an empty
cell has no value. -/
def Environment.resolve (env : Environment) (label : Token) : Except Fault Float :=
  match env.read label with
  | none => .error .invalidCell
  | some cell =>
    match cell.fault.filter (· ≠ .emptyFormula) with
    | some fault => .error fault
    | none => if cell.filled then .ok cell.value else .error .invalidCell

/-- An operand as it was met. -/
inductive Visit
  | number (x : Float)
  | reference (label : Token) (value : Except Fault Float)

def Visit.value? : Visit → Option Float
  | number x => some x
  | reference _ (.ok x) => some x
  | reference _ (.error _) => none

def Visit.label? : Visit → Option Token
  | number _ => none
  | reference label _ => some label

/-- The result of a grammar rule: a value and fewer than `n` tokens behind it, or a fault. -/
inductive Step (n : Nat)
  | value (x : Float) (rest : List Token) (shorter : rest.length < n) (trace : List Visit)
  | stop (fault : Fault) (trace : List Visit)

namespace Step

def widen {m n : Nat} (h : m ≤ n) : Step m → Step n
  | value x rest shorter trace => value x rest (Nat.lt_of_lt_of_le shorter h) trace
  | stop fault trace => stop fault trace

/-- The same result after earlier operands. -/
def after {n : Nat} (earlier : List Visit) : Step n → Step n
  | value x rest shorter trace => value x rest shorter (earlier ++ trace)
  | stop fault trace => stop fault (earlier ++ trace)

end Step

variable (env : Environment)

def operand : (ts : List Token) → Step ts.length
  | [] => .stop .invalidNumber []
  | t :: rest =>
    if env.isLabel t then
      match env.resolve t with
      | .ok x => .value x rest (Nat.lt_succ_self _) [.reference t (.ok x)]
      | .error fault => .stop fault [.reference t (.error fault)]
    else
      match t.number? with
      | some x => .value x rest (Nat.lt_succ_self _) [.number x]
      | none => .stop .invalidNumber []

mutual

def expression (ts : List Token) : Step ts.length :=
  match term ts with
  | .stop fault trace => .stop fault trace
  | .value x rest shorter trace => ((sums x rest).widen shorter).after trace
termination_by (ts.length, 2)

/-- Further summands, added from the left. -/
def sums (total : Float) (ts : List Token) : Step (ts.length + 1) :=
  match ts with
  | [] => .value total [] (Nat.lt_succ_self _) []
  | t :: rest =>
    match Token.additive? t with
    | none => .value total (t :: rest) (Nat.lt_succ_self _) []
    | some op =>
      match term rest with
      | .stop fault trace => .stop fault trace
      | .value x more shorter trace =>
        ((sums (op.apply total x) more).widen (by simp only [List.length_cons]; omega)).after trace
termination_by (ts.length, 0)

def term (ts : List Token) : Step ts.length :=
  match factor ts with
  | .stop fault trace => .stop fault trace
  | .value x rest shorter trace => ((products x rest).widen shorter).after trace
termination_by (ts.length, 1)

/-- Further factors, taken from the left. A divisor equal to zero stops the evaluation. -/
def products (product : Float) (ts : List Token) : Step (ts.length + 1) :=
  match ts with
  | [] => .value product [] (Nat.lt_succ_self _) []
  | t :: rest =>
    match Token.multiplicative? t with
    | none => .value product (t :: rest) (Nat.lt_succ_self _) []
    | some op =>
      match factor rest with
      | .stop fault trace => .stop fault trace
      | .value x more shorter trace =>
        if op = .div ∧ x == 0.0 then .stop .divideByZero trace
        else
          ((products (op.apply product x) more).widen
            (by simp only [List.length_cons]; omega)).after trace
termination_by (ts.length, 0)

def factor (ts : List Token) : Step ts.length :=
  match ts with
  | [] => operand env []
  | t :: rest =>
    if t = "(" then
      match expression rest with
      | .stop fault trace => .stop fault trace
      | .value _ [] _ trace => .stop .missingParentheses trace
      | .value x (close :: more) shorter trace =>
        if close = ")" then
          .value x more (by simp only [List.length_cons] at *; omega) trace
        else .stop .missingParentheses trace
    else operand env (t :: rest)
termination_by (ts.length, 0)

end

/-- An outcome and the operands met on the way. -/
structure Evaluation where
  outcome : Outcome
  trace : List Visit

/-- The labels that were looked up, in order. -/
def Evaluation.labels (e : Evaluation) : List Token := e.trace.filterMap Visit.label?

/-- The number offered with a fault: the last operand read, if there is one and the evaluation
itself came to nothing but zero. -/
def advisory (result : Float) (trace : List Visit) : Float :=
  if result == 0.0 then ((trace.filterMap Visit.value?).getLast?).getD result else result

/-- Evaluates a formula. An operator at the end is set aside first; if the rest evaluates, its value
stands and the formula is invalid. A division by zero offers infinity as its number. -/
def evaluate (tokens : List Token) : Evaluation :=
  if tokens.isEmpty then ⟨⟨0.0, some .emptyFormula⟩, []⟩
  else
    let trailing := tokens.getLast?.any Token.isOperator
    let body := if trailing then tokens.dropLast else tokens
    match expression env body with
    | .value x [] _ trace => ⟨⟨x, if trailing then some .invalidFormula else none⟩, trace⟩
    | .value x (_ :: _) _ trace => ⟨⟨advisory x trace, some .invalidFormula⟩, trace⟩
    | .stop fault trace =>
      let result := if fault = .divideByZero then 1.0 / 0.0 else 0.0
      ⟨⟨advisory result trace, some fault⟩, trace⟩

end FormulaSheet
