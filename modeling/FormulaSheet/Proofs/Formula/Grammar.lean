import FormulaSheet.Formula.Evaluation
/-!
The grammar of formulas as trees:

    Expression := Term (('+' | '-') Term)*
    Term       := Factor (('*' | '/') Factor)*
    Factor     := '(' Expression ')' | label | number

A tree has tokens, the labels it refers to, a value with operators of one rank taken from the left,
and the values it divides by. As long as no operator and no parenthesis is a label, the tokens
determine the tree.
-/

namespace FormulaSheet

/-- The value that a cell shows, whatever is wrong with it. -/
def Environment.valueOf (env : Environment) (label : Token) : Float :=
  ((env.read label).map Reading.value).getD 0.0

/-- The label leads to a cell with a formula, and nothing is wrong with it but being empty. -/
def Environment.Resolves (env : Environment) (label : Token) : Prop :=
  ∃ cell, env.read label = some cell ∧ cell.filled = true ∧
    (cell.fault = none ∨ cell.fault = some .emptyFormula)

namespace Grammar

def symbols : List Token := ["+", "-", "*", "/", "(", ")"]

def token : Token.Operator → Token
  | .add => "+"
  | .sub => "-"
  | .mul => "*"
  | .div => "/"

def isAdditive : Token.Operator → Bool
  | .add | .sub => true
  | .mul | .div => false

/-- No operator and no parenthesis is taken for a label. -/
def Plain (isLabel : Token → Bool) : Prop := ∀ t ∈ symbols, isLabel t = false

mutual

inductive Expression (isLabel : Token → Bool)
  | mk (first : Term isLabel) (rest : Summands isLabel)

inductive Summands (isLabel : Token → Bool)
  | none
  | more (op : Token.Operator) (additive : isAdditive op = true) (summand : Term isLabel)
      (rest : Summands isLabel)

inductive Term (isLabel : Token → Bool)
  | mk (first : Factor isLabel) (rest : Factors isLabel)

inductive Factors (isLabel : Token → Bool)
  | none
  | more (op : Token.Operator) (multiplicative : isAdditive op = false) (operand : Factor isLabel)
      (rest : Factors isLabel)

inductive Factor (isLabel : Token → Bool)
  | parentheses (inner : Expression isLabel)
  | reference (label : Token) (known : isLabel label = true)
  | number (literal : Token) (plain : isLabel literal = false) (x : Float)
      (reads : literal.number? = some x)

end

variable {isLabel : Token → Bool}

mutual

def Expression.tokens : Expression isLabel → List Token
  | .mk first rest => first.tokens ++ rest.tokens

def Summands.tokens : Summands isLabel → List Token
  | .none => []
  | .more op _ summand rest => token op :: (summand.tokens ++ rest.tokens)

def Term.tokens : Term isLabel → List Token
  | .mk first rest => first.tokens ++ rest.tokens

def Factors.tokens : Factors isLabel → List Token
  | .none => []
  | .more op _ operand rest => token op :: (operand.tokens ++ rest.tokens)

def Factor.tokens : Factor isLabel → List Token
  | .parentheses inner => "(" :: (inner.tokens ++ [")"])
  | .reference label _ => [label]
  | .number literal _ _ _ => [literal]

end

mutual

def Expression.references : Expression isLabel → List Token
  | .mk first rest => first.references ++ rest.references

def Summands.references : Summands isLabel → List Token
  | .none => []
  | .more _ _ summand rest => summand.references ++ rest.references

def Term.references : Term isLabel → List Token
  | .mk first rest => first.references ++ rest.references

def Factors.references : Factors isLabel → List Token
  | .none => []
  | .more _ _ operand rest => operand.references ++ rest.references

def Factor.references : Factor isLabel → List Token
  | .parentheses inner => inner.references
  | .reference label _ => [label]
  | .number _ _ _ _ => []

end

section Value

variable (env : Environment)

mutual

def Expression.value : Expression isLabel → Float
  | .mk first rest => rest.value first.value

/-- The sum of what stands in front and the summands, added from the left. -/
def Summands.value (total : Float) : Summands isLabel → Float
  | .none => total
  | .more op _ summand rest => rest.value (op.apply total summand.value)

def Term.value : Term isLabel → Float
  | .mk first rest => rest.value first.value

def Factors.value (product : Float) : Factors isLabel → Float
  | .none => product
  | .more op _ operand rest => rest.value (op.apply product operand.value)

def Factor.value : Factor isLabel → Float
  | .parentheses inner => inner.value
  | .reference label _ => env.valueOf label
  | .number _ _ x _ => x

end

mutual

/-- The values of the factors behind a division sign. -/
def Expression.divisors : Expression isLabel → List Float
  | .mk first rest => first.divisors ++ rest.divisors

def Summands.divisors : Summands isLabel → List Float
  | .none => []
  | .more _ _ summand rest => summand.divisors ++ rest.divisors

def Term.divisors : Term isLabel → List Float
  | .mk first rest => first.divisors ++ rest.divisors

def Factors.divisors : Factors isLabel → List Float
  | .none => []
  | .more op _ operand rest =>
    operand.divisors ++ ((if op = .div then [operand.value env] else []) ++ rest.divisors)

def Factor.divisors : Factor isLabel → List Float
  | .parentheses inner => inner.divisors
  | .reference _ _ => []
  | .number _ _ _ _ => []

end

end Value

/-! What can stand behind a tree. -/

/-- The tokens do not begin with an operator of the kind. -/
def Past (operator? : Token → Option Token.Operator) (ts : List Token) : Prop :=
  ∀ t ∈ ts.head?, operator? t = none

theorem past_nil (operator? : Token → Option Token.Operator) : Past operator? [] := by
  intro t ht
  cases ht

theorem past_cons {operator? : Token → Option Token.Operator} {t : Token} (h : operator? t = none)
    (rest : List Token) : Past operator? (t :: rest) := by
  intro t' ht
  cases ht
  exact h

theorem Past.not_operator {operator? : Token → Option Token.Operator} {t : Token}
    {rest ts : List Token} (h : Past operator? ts) (same : ts = t :: rest) {op : Token.Operator} :
    operator? t ≠ some op := by
  subst same
  rw [h t rfl]
  exact nofun

theorem additive?_token {op : Token.Operator} (h : isAdditive op = true) :
    Token.additive? (token op) = some op := by
  cases op with
  | add | sub => rfl
  | mul | div => cases h

theorem multiplicative?_token {op : Token.Operator} (h : isAdditive op = false) :
    Token.multiplicative? (token op) = some op := by
  cases op with
  | add | sub => cases h
  | mul | div => rfl

theorem multiplicative?_of_additive {op : Token.Operator} (h : isAdditive op = true) :
    Token.multiplicative? (token op) = none := by
  cases op with
  | add | sub => rfl
  | mul | div => cases h

theorem token_of_additive? {t : Token} {op : Token.Operator} (h : Token.additive? t = some op) :
    t = token op ∧ isAdditive op = true := by
  unfold Token.additive? at h
  split at h
  · cases h
    exact ⟨rfl, rfl⟩
  · cases h
    exact ⟨rfl, rfl⟩
  · cases h

theorem token_of_multiplicative? {t : Token} {op : Token.Operator}
    (h : Token.multiplicative? t = some op) : t = token op ∧ isAdditive op = false := by
  unfold Token.multiplicative? at h
  split at h
  · cases h
    exact ⟨rfl, rfl⟩
  · cases h
    exact ⟨rfl, rfl⟩
  · cases h

theorem token_injective {op op' : Token.Operator} (h : token op = token op') : op = op' := by
  cases op <;> cases op' <;> first | rfl | exact absurd h (by decide)

theorem Summands.past {more : List Token} (h : Past Token.multiplicative? more)
    (s : Summands isLabel) : Past Token.multiplicative? (s.tokens ++ more) := by
  cases s with
  | none => exact h
  | more op additive summand rest => exact past_cons (multiplicative?_of_additive additive) _

theorem number?_symbol {t : Token} (h : t ∈ symbols) : t.number? = none := by
  revert t
  decide

theorem label_ne_symbol (plain : Plain isLabel) {t symbol : Token} (label : isLabel t = true) (h : symbol ∈ symbols) :
    t ≠ symbol := by
  rintro rfl
  rw [plain t h] at label
  cases label

theorem number_ne_symbol {t symbol : Token} {x : Float} (reads : t.number? = some x)
    (h : symbol ∈ symbols) : t ≠ symbol := by
  rintro rfl
  rw [number?_symbol h] at reads
  cases reads

/-! The last token of a tree. -/

/-- The tokens end, and not with an operator. -/
def Closed (ts : List Token) : Prop :=
  ∃ front t, ts = front ++ [t] ∧ Token.isOperator t = false

theorem closed_singleton {t : Token} (h : Token.isOperator t = false) : Closed [t] :=
  ⟨[], t, rfl, h⟩

theorem Closed.append {ts : List Token} (h : Closed ts) (front : List Token) :
    Closed (front ++ ts) := by
  obtain ⟨front', t, rfl, plain⟩ := h
  exact ⟨front ++ front', t, (List.append_assoc front front' [t]).symm, plain⟩

theorem Closed.append_of_closed {ts more : List Token} (h : Closed ts)
    (h' : more = [] ∨ Closed more) : Closed (ts ++ more) := by
  rcases h' with rfl | h'
  · rw [List.append_nil]
    exact h
  · exact h'.append ts

theorem token_mem_symbols (op : Token.Operator) : token op ∈ symbols := by
  cases op <;> decide

theorem isOperator_eq_false {t : Token} (h : t ∉ symbols) : Token.isOperator t = false := by
  rw [Token.isOperator, Bool.or_eq_false_iff, Option.isSome_eq_false_iff,
    Option.isSome_eq_false_iff, Option.isNone_iff_eq_none, Option.isNone_iff_eq_none]
  constructor
  · rw [Option.eq_none_iff_forall_ne_some]
    intro op hop
    exact h ((token_of_additive? hop).1 ▸ token_mem_symbols op)
  · rw [Option.eq_none_iff_forall_ne_some]
    intro op hop
    exact h ((token_of_multiplicative? hop).1 ▸ token_mem_symbols op)

theorem Factor.closed (plain : Plain isLabel) (f : Factor isLabel) : Closed f.tokens := by
  cases f with
  | parentheses inner => exact ((closed_singleton rfl).append inner.tokens).append ["("]
  | reference label known =>
    apply closed_singleton
    apply isOperator_eq_false
    intro mem
    exact label_ne_symbol plain known mem rfl
  | number literal ordinary x reads =>
    apply closed_singleton
    apply isOperator_eq_false
    intro mem
    exact number_ne_symbol reads mem rfl

theorem Factors.closed (plain : Plain isLabel) (s : Factors isLabel) :
    s.tokens = [] ∨ Closed s.tokens := by
  cases s with
  | none => exact .inl rfl
  | more op multiplicative operand rest =>
    have behind := (operand.closed plain).append_of_closed (rest.closed plain)
    exact .inr (behind.append [token op])
termination_by structural s

theorem Term.closed (plain : Plain isLabel) (t : Term isLabel) : Closed t.tokens := by
  obtain ⟨first, rest⟩ := t
  exact (first.closed plain).append_of_closed (rest.closed plain)

theorem Summands.closed (plain : Plain isLabel) (s : Summands isLabel) :
    s.tokens = [] ∨ Closed s.tokens := by
  cases s with
  | none => exact .inl rfl
  | more op additive summand rest =>
    have behind := (summand.closed plain).append_of_closed (rest.closed plain)
    exact .inr (behind.append [token op])
termination_by structural s

theorem Expression.closed (plain : Plain isLabel) (e : Expression isLabel) : Closed e.tokens := by
  obtain ⟨first, rest⟩ := e
  exact (first.closed plain).append_of_closed (rest.closed plain)

/-! The tokens determine the tree. -/

mutual

theorem Expression.eq_of_tokens (plain : Plain isLabel) {e e' : Expression isLabel} {more more' : List Token}
    (add : Past Token.additive? more) (mul : Past Token.multiplicative? more)
    (add' : Past Token.additive? more') (mul' : Past Token.multiplicative? more')
    (h : e.tokens ++ more = e'.tokens ++ more') : e = e' ∧ more = more' := by
  obtain ⟨first, rest⟩ := e
  obtain ⟨first', rest'⟩ := e'
  simp only [Expression.tokens, List.append_assoc] at h
  obtain ⟨rfl, behind⟩ := first.eq_of_tokens plain (rest.past mul) (rest'.past mul') h
  obtain ⟨rfl, same⟩ := rest.eq_of_tokens plain add mul add' mul' behind
  exact ⟨rfl, same⟩
termination_by structural e

theorem Summands.eq_of_tokens (plain : Plain isLabel) {s s' : Summands isLabel} {more more' : List Token}
    (add : Past Token.additive? more) (mul : Past Token.multiplicative? more)
    (add' : Past Token.additive? more') (mul' : Past Token.multiplicative? more')
    (h : s.tokens ++ more = s'.tokens ++ more') : s = s' ∧ more = more' := by
  cases s with
  | none =>
    cases s' with
    | none => exact ⟨rfl, h⟩
    | more op additive summand rest =>
      exact absurd (additive?_token additive) (add.not_operator h)
  | more op additive summand rest =>
    cases s' with
    | none => exact absurd (additive?_token additive) (add'.not_operator h.symm)
    | more op' additive' summand' rest' =>
      simp only [Summands.tokens, List.cons_append, List.append_assoc, List.cons.injEq] at h
      obtain ⟨sign, behind⟩ := h
      obtain rfl := token_injective sign
      obtain ⟨rfl, beyond⟩ := summand.eq_of_tokens plain (rest.past mul) (rest'.past mul') behind
      obtain ⟨rfl, same⟩ := rest.eq_of_tokens plain add mul add' mul' beyond
      exact ⟨rfl, same⟩
termination_by structural s

theorem Term.eq_of_tokens (plain : Plain isLabel) {t t' : Term isLabel} {more more' : List Token}
    (mul : Past Token.multiplicative? more) (mul' : Past Token.multiplicative? more')
    (h : t.tokens ++ more = t'.tokens ++ more') : t = t' ∧ more = more' := by
  obtain ⟨first, rest⟩ := t
  obtain ⟨first', rest'⟩ := t'
  simp only [Term.tokens, List.append_assoc] at h
  obtain ⟨rfl, behind⟩ := first.eq_of_tokens plain h
  obtain ⟨rfl, same⟩ := rest.eq_of_tokens plain mul mul' behind
  exact ⟨rfl, same⟩
termination_by structural t

theorem Factors.eq_of_tokens (plain : Plain isLabel) {s s' : Factors isLabel} {more more' : List Token}
    (mul : Past Token.multiplicative? more) (mul' : Past Token.multiplicative? more')
    (h : s.tokens ++ more = s'.tokens ++ more') : s = s' ∧ more = more' := by
  cases s with
  | none =>
    cases s' with
    | none => exact ⟨rfl, h⟩
    | more op multiplicative operand rest =>
      exact absurd (multiplicative?_token multiplicative) (mul.not_operator h)
  | more op multiplicative operand rest =>
    cases s' with
    | none => exact absurd (multiplicative?_token multiplicative) (mul'.not_operator h.symm)
    | more op' multiplicative' operand' rest' =>
      simp only [Factors.tokens, List.cons_append, List.append_assoc, List.cons.injEq] at h
      obtain ⟨sign, behind⟩ := h
      obtain rfl := token_injective sign
      obtain ⟨rfl, beyond⟩ := operand.eq_of_tokens plain behind
      obtain ⟨rfl, same⟩ := rest.eq_of_tokens plain mul mul' beyond
      exact ⟨rfl, same⟩
termination_by structural s

theorem Factor.eq_of_tokens (plain : Plain isLabel) {f f' : Factor isLabel} {more more' : List Token}
    (h : f.tokens ++ more = f'.tokens ++ more') : f = f' ∧ more = more' := by
  have opening : "(" ∈ symbols := by decide
  cases f with
  | parentheses inner =>
    cases f' with
    | parentheses inner' =>
      simp only [Factor.tokens, List.cons_append, List.append_assoc, List.nil_append,
        List.cons.injEq, true_and] at h
      obtain ⟨rfl, same⟩ := inner.eq_of_tokens plain (past_cons rfl more) (past_cons rfl more)
        (past_cons rfl more') (past_cons rfl more') h
      exact ⟨rfl, List.tail_eq_of_cons_eq same⟩
    | reference label known =>
      exact absurd (List.head_eq_of_cons_eq h).symm (label_ne_symbol plain known opening)
    | number literal ordinary x reads =>
      exact absurd (List.head_eq_of_cons_eq h).symm (number_ne_symbol reads opening)
  | reference label known =>
    cases f' with
    | parentheses inner' =>
      exact absurd (List.head_eq_of_cons_eq h) (label_ne_symbol plain known opening)
    | reference label' known' =>
      cases h
      exact ⟨rfl, rfl⟩
    | number literal ordinary x reads =>
      cases h
      rw [ordinary] at known
      cases known
  | number literal ordinary x reads =>
    cases f' with
    | parentheses inner' =>
      exact absurd (List.head_eq_of_cons_eq h) (number_ne_symbol reads opening)
    | reference label known =>
      cases h
      rw [ordinary] at known
      cases known
    | number literal' ordinary' x' reads' =>
      cases h
      rw [reads] at reads'
      cases reads'
      exact ⟨rfl, rfl⟩
termination_by structural f

end

end Grammar

end FormulaSheet
