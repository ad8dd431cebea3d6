import FormulaSheet.Proofs.Formula.Calls
/-!
How far the grammar rules read. Of several trees of one rule in front of the same tokens, the one
behind which no operator can go on is the longest. A rule that gives a value has read such a tree: so
what it has read is the longest of the token lists in front that the rule derives.
-/

namespace FormulaSheet

open Grammar

variable {isLabel : Token → Bool} {env : Environment}

/-! Behind a value stands no operator of the rule. -/

theorem past_of_products {product x : Float} {ts rest : List Token}
    (h : (products env product ts).progress.result = .ok (x, rest)) :
    Past Token.multiplicative? rest := by
  induction hn : ts.length using Nat.strongRecOn generalizing product ts with
  | ind n ih =>
    cases ts with
    | nil =>
      rw [progress_products_nil] at h
      cases h
      exact past_nil _
    | cons t behind =>
      rw [progress_products_cons] at h
      cases hop : Token.multiplicative? t with
      | none =>
        rw [hop] at h
        cases h
        exact past_cons hop behind
      | some op =>
        rw [hop] at h
        obtain ⟨y, more, first, second⟩ := Progress.result_andThen_eq_ok h
        have shorter : more.length < n := hn ▸ Nat.lt_succ_of_lt (Step.length_lt first)
        exact ih more.length shorter (nonzero_of_quotient second).2 rfl

theorem past_of_term {x : Float} {ts rest : List Token}
    (h : (term env ts).progress.result = .ok (x, rest)) : Past Token.multiplicative? rest := by
  rw [progress_term] at h
  obtain ⟨y, more, _, second⟩ := Progress.result_andThen_eq_ok h
  exact past_of_products second

theorem past_of_sums {total x : Float} {ts rest : List Token}
    (mul : Past Token.multiplicative? ts)
    (h : (sums env total ts).progress.result = .ok (x, rest)) :
    Past Token.additive? rest ∧ Past Token.multiplicative? rest := by
  induction hn : ts.length using Nat.strongRecOn generalizing total ts with
  | ind n ih =>
    cases ts with
    | nil =>
      rw [progress_sums_nil] at h
      cases h
      exact ⟨past_nil _, mul⟩
    | cons t behind =>
      rw [progress_sums_cons] at h
      cases hop : Token.additive? t with
      | none =>
        rw [hop] at h
        cases h
        exact ⟨past_cons hop behind, mul⟩
      | some op =>
        rw [hop] at h
        obtain ⟨y, more, first, second⟩ := Progress.result_andThen_eq_ok h
        have shorter : more.length < n := hn ▸ Nat.lt_succ_of_lt (Step.length_lt first)
        exact ih more.length shorter (past_of_term first) second rfl

theorem past_of_expression {x : Float} {ts rest : List Token}
    (h : (expression env ts).progress.result = .ok (x, rest)) :
    Past Token.additive? rest ∧ Past Token.multiplicative? rest := by
  rw [progress_expression] at h
  obtain ⟨y, more, first, second⟩ := Progress.result_andThen_eq_ok h
  exact past_of_sums (past_of_term first) second

namespace Grammar

/-! A tree behind which no operator of its rule stands leaves no more than any other. -/

theorem Factors.length_le (plain : Plain isLabel) {s s' : Factors isLabel}
    {more more' : List Token} (mul : Past Token.multiplicative? more)
    (h : s.tokens ++ more = s'.tokens ++ more') : more.length ≤ more'.length := by
  cases s' with
  | none => exact List.IsSuffix.length_le ⟨s.tokens, h⟩
  | more op' multiplicative' operand' rest' =>
    cases s with
    | none => exact absurd (multiplicative?_token multiplicative') (mul.not_operator h)
    | more op multiplicative operand rest =>
      simp only [Factors.tokens, List.cons_append, List.append_assoc, List.cons.injEq] at h
      obtain ⟨rfl, beyond⟩ := operand.eq_of_tokens plain h.2
      exact rest.length_le plain mul beyond
termination_by structural s'

theorem Term.length_le (plain : Plain isLabel) {t t' : Term isLabel} {more more' : List Token}
    (mul : Past Token.multiplicative? more) (h : t.tokens ++ more = t'.tokens ++ more') :
    more.length ≤ more'.length := by
  obtain ⟨first, rest⟩ := t
  obtain ⟨first', rest'⟩ := t'
  simp only [Term.tokens, List.append_assoc] at h
  obtain ⟨rfl, behind⟩ := first.eq_of_tokens plain h
  exact rest.length_le plain mul behind

theorem Term.length_le_of_summands (plain : Plain isLabel) {t t' : Term isLabel}
    {s s' : Summands isLabel} {more more' : List Token} (mul : Past Token.multiplicative? more)
    (behind : s.tokens ++ more = s'.tokens ++ more' → more.length ≤ more'.length)
    (h : t.tokens ++ (s.tokens ++ more) = t'.tokens ++ (s'.tokens ++ more')) :
    more.length ≤ more'.length := by
  -- the terms differ only if the second is shorter; then an operator follows it that begins no
  -- summand, so nothing else belongs to the second tree
  cases s' with
  | none =>
    have left : (s.tokens ++ more).length ≤ more'.length := t.length_le plain (s.past mul) h
    rw [List.length_append] at left
    omega
  | more op additive summand rest =>
    have past := past_cons (multiplicative?_of_additive additive)
      (summand.tokens ++ rest.tokens ++ more')
    exact behind (t.eq_of_tokens plain (s.past mul) past h).2

theorem Summands.length_le (plain : Plain isLabel) {s s' : Summands isLabel}
    {more more' : List Token} (add : Past Token.additive? more)
    (mul : Past Token.multiplicative? more) (h : s.tokens ++ more = s'.tokens ++ more') :
    more.length ≤ more'.length := by
  cases s' with
  | none => exact List.IsSuffix.length_le ⟨s.tokens, h⟩
  | more op' additive' summand' rest' =>
    cases s with
    | none => exact absurd (additive?_token additive') (add.not_operator h)
    | more op additive summand rest =>
      simp only [Summands.tokens, List.cons_append, List.append_assoc, List.cons.injEq] at h
      exact Term.length_le_of_summands plain mul (rest.length_le plain add mul) h.2
termination_by structural s'

theorem Expression.length_le (plain : Plain isLabel) {e e' : Expression isLabel}
    {more more' : List Token} (add : Past Token.additive? more)
    (mul : Past Token.multiplicative? more) (h : e.tokens ++ more = e'.tokens ++ more') :
    more.length ≤ more'.length := by
  obtain ⟨first, rest⟩ := e
  obtain ⟨first', rest'⟩ := e'
  simp only [Expression.tokens, List.append_assoc] at h
  exact Term.length_le_of_summands plain mul (rest.length_le plain add mul) h

end Grammar

/-- The rules that formulas are derived from. -/
inductive Rule
  | expression | term | factor

namespace Rule

def call : Rule → List Token → Call
  | expression => .expression
  | term => .term
  | factor => .factor

/-- The token lists that can be derived from a rule. -/
def Derives (isLabel : Token → Bool) : Rule → List Token → Prop
  | expression, ts => ∃ e : Expression isLabel, e.tokens = ts
  | term, ts => ∃ t : Term isLabel, t.tokens = ts
  | factor, ts => ∃ f : Factor isLabel, f.tokens = ts

/-- The operators that can go on behind what a rule derives. -/
def continuedBy : Rule → Token.Operator → Bool
  | expression, _ => true
  | term, op => !isAdditive op
  | factor, _ => false

/-- Of the token lists in front that the rule derives, the longest is taken, and no operator that
could go on is left next. -/
structure Takes (isLabel : Token → Bool) (rule : Rule) (ts taken rest : List Token) : Prop where
  front : taken ++ rest = ts
  derived : rule.Derives isLabel taken
  longest : ∀ other, other <+: ts → rule.Derives isLabel other → other.length ≤ taken.length
  past : ∀ op, rule.continuedBy op = true → rest.head? ≠ some (token op)

theorem takes_of_length_le {rule : Rule} {ts taken rest : List Token}
    (front : taken ++ rest = ts) (derived : rule.Derives isLabel taken)
    (least : ∀ other more, rule.Derives isLabel other → taken ++ rest = other ++ more →
      rest.length ≤ more.length)
    (past : ∀ op, rule.continuedBy op = true → rest.head? ≠ some (token op)) :
    rule.Takes isLabel ts taken rest := by
  refine ⟨front, derived, ?_, past⟩
  rintro other ⟨more, same⟩ derives
  have left := least other more derives (front.trans same.symm)
  have lengths := congrArg List.length (front.trans same.symm)
  rw [List.length_append, List.length_append] at lengths
  omega

theorem head?_ne_of_past {operator? : Token → Option Token.Operator} {op : Token.Operator}
    {rest : List Token} (past : Past operator? rest) (h : operator? (token op) = some op) :
    rest.head? ≠ some (token op) := by
  intro next
  rw [past (token op) next] at h
  cases h

theorem takes_of_progress (plain : Plain env.isLabel) {rule : Rule} {ts rest : List Token}
    {x : Float} (h : ((rule.call ts).progress env).result = .ok (x, rest)) :
    ∃ taken, rule.Takes env.isLabel ts taken rest := by
  cases rule with
  | expression =>
    obtain ⟨e, front, _⟩ := (tree_of_progress env).1 ts x rest h
    obtain ⟨add, mul⟩ := past_of_expression h
    refine ⟨e.tokens, takes_of_length_le front ⟨e, rfl⟩ ?_ ?_⟩
    · rintro other more ⟨e', rfl⟩ same
      exact e.length_le plain add mul same
    · intro op _
      cases additive : isAdditive op with
      | true => exact head?_ne_of_past add (additive?_token additive)
      | false => exact head?_ne_of_past mul (multiplicative?_token additive)
  | term =>
    obtain ⟨t, front, _⟩ := (tree_of_progress env).2.2.1 ts x rest h
    have mul := past_of_term h
    refine ⟨t.tokens, takes_of_length_le front ⟨t, rfl⟩ ?_ ?_⟩
    · rintro other more ⟨t', rfl⟩ same
      exact t.length_le plain mul same
    · intro op multiplicative
      exact head?_ne_of_past mul (multiplicative?_token (Bool.not_eq_true' _ ▸ multiplicative))
  | factor =>
    obtain ⟨f, front, _⟩ := (tree_of_progress env).2.2.2.2 ts x rest h
    refine ⟨f.tokens, takes_of_length_le front ⟨f, rfl⟩ ?_ nofun⟩
    rintro other more ⟨f', rfl⟩ same
    exact Nat.le_of_eq (congrArg List.length (f.eq_of_tokens plain same).2)

theorem length_lt_of_progress {rule : Rule} {ts rest : List Token} {x : Float}
    (h : ((rule.call ts).progress env).result = .ok (x, rest)) : rest.length < ts.length := by
  cases rule with
  | expression => exact Step.length_lt h
  | term => exact Step.length_lt h
  | factor => exact Step.length_lt h

end Rule

/-- A rule that gives a value at some place in the tokens has gone on by one token or more, not past
the end, and has taken the longest of the token lists from there that it derives. Whatever they
give, the rules do the work that is laid out for them, and nothing else agrees with it; every
expression, and every turn of a loop, that is reached from a call begins with fewer of its tokens;
and no chain of calls goes on forever. -/
theorem rules_take_longest (env : Environment) (plain : Plain env.isLabel) (tokens : List Token)
    (pos : Nat) :
    (∀ (rule : Rule) (x : Float) (rest : List Token),
      ((rule.call (tokens.drop pos)).progress env).result = .ok (x, rest) →
      ∃ stop, pos < stop ∧ stop ≤ tokens.length ∧ rest = tokens.drop stop ∧
        rule.Takes env.isLabel (tokens.drop pos) ((tokens.drop pos).take (stop - pos)) rest) ∧
    (∀ answer : Call → Progress,
      (∀ c, answer c = (c.work env).outcome answer) ↔ answer = Call.progress env) ∧
    (∀ c c' : Call, Relation.TransGen (Makes env) c c' → c'.recurs = true →
      c'.remaining <:+ c.remaining ∧ c'.remaining.length < c.remaining.length) ∧
    WellFounded fun c' c : Call => Makes env c c' := by
  refine ⟨?_, ?_, fun c c' chain recurs => fewer_of_chain chain recurs, makes_wellFounded env⟩
  · intro rule x rest h
    obtain ⟨taken, takes⟩ := Rule.takes_of_progress plain h
    have shorter := Rule.length_lt_of_progress h
    have lengths := congrArg List.length takes.front
    rw [List.length_append, List.length_drop] at lengths
    rw [List.length_drop] at shorter
    have left : rest = tokens.drop (pos + taken.length) := by
      rw [← List.drop_drop, ← takes.front, List.drop_left]
    have first : (tokens.drop pos).take (pos + taken.length - pos) = taken := by
      rw [Nat.add_sub_cancel_left, ← takes.front, List.take_left]
    refine ⟨pos + taken.length, by omega, by omega, left, ?_⟩
    rw [first]
    exact takes
  · intro answer
    refine ⟨eq_progress_of_outcome, ?_⟩
    rintro rfl
    exact Call.progress_eq_outcome env

/-- A difference in parentheses, which are closed once too often. -/
def unbalanced : List Token := ["*", "(", "A1", "-", "A1", ")", ")"]

theorem rules_take_longest_of_unbalanced :
    Plain oneCell.isLabel ∧
      ((Rule.call .expression (unbalanced.drop 1)).progress oneCell).result =
        .ok (2.0 - 2.0, [")"]) ∧
      (∃ stop, 1 < stop ∧ stop ≤ unbalanced.length ∧ [")"] = unbalanced.drop stop ∧
        Rule.Takes oneCell.isLabel .expression (unbalanced.drop 1)
          ((unbalanced.drop 1).take (stop - 1)) [")"]) ∧
      Relation.TransGen (Makes oneCell) (.expression (unbalanced.drop 1))
        (.expression (unbalanced.drop 2)) ∧
      (unbalanced.drop 2).length < (unbalanced.drop 1).length := by
  have resolves : oneCell.Resolves "A1" := ⟨⟨2.0, none, true⟩, rfl, rfl, .inl rfl⟩
  have clear : Clear oneCell difference.references (difference.divisors oneCell) :=
    ⟨List.forall_mem_cons.mpr ⟨resolves, List.forall_mem_singleton.mpr resolves⟩, nofun⟩
  have read : (expression oneCell (difference.tokens ++ [")"])).progress.result =
      .ok (2.0 - 2.0, [")"]) :=
    difference.read oneCell_plain clear (past_cons rfl []) (past_cons rfl [])
  have inward : Relation.TransGen (Makes oneCell) (.expression (unbalanced.drop 1))
      (.expression (unbalanced.drop 2)) := chain_of_parenthesis _
  obtain ⟨taken, _, chains, _⟩ := rules_take_longest oneCell oneCell_plain unbalanced 1
  exact ⟨oneCell_plain, read, taken .expression _ _ read, inward, (chains _ _ inward rfl).2⟩

end FormulaSheet
