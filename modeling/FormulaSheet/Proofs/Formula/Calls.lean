import Mathlib.Logic.Relation
import FormulaSheet.Proofs.Formula.Locality
/-!
The calls of the grammar rules. What a rule does is laid out as its work: the rules that it calls,
one after another, what it does with their answers, and the turns of its loop. The rules give what
their work comes to, and no other answers agree with it. Whatever the tokens, a call leaves none to
the calls it makes but those still to be read, and an expression or a turn of a loop that is reached
from it has fewer tokens than it: so every chain of calls ends.
-/

namespace FormulaSheet

/-- A grammar rule with the tokens in front of it, or a turn of its loop with the value so far. -/
inductive Call
  | expression (ts : List Token)
  | sums (total : Float) (ts : List Token)
  | term (ts : List Token)
  | products (product : Float) (ts : List Token)
  | factor (ts : List Token)

namespace Call

def remaining : Call → List Token
  | expression ts | sums _ ts | term ts | products _ ts | factor ts => ts

def progress (env : Environment) : Call → Progress
  | expression ts => (FormulaSheet.expression env ts).progress
  | sums total ts => (FormulaSheet.sums env total ts).progress
  | term ts => (FormulaSheet.term env ts).progress
  | products product ts => (FormulaSheet.products env product ts).progress
  | factor ts => (FormulaSheet.factor env ts).progress

/-- An expression, which rules nest in one another, or a turn of a loop. -/
def recurs : Call → Bool
  | expression _ | sums _ _ | products _ _ => true
  | term _ | factor _ => false

/-- How many rules can be entered one from another before a token is read. -/
def level : Call → Nat
  | expression _ => 2
  | term _ => 1
  | sums _ _ | products _ _ | factor _ => 0

end Call

/-- What a rule does: it is done, or calls a rule and goes on behind the value of that, or leaves
the rest to the next turn of a loop. -/
inductive Work
  | done (p : Progress)
  | call (c : Call) (next : Float → List Token → Work)
  | turn (c : Call)

namespace Work

/-- What the work comes to if its calls are answered in this way; a fault ends it. -/
def outcome (answer : Call → Progress) : Work → Progress
  | done p => p
  | call c next => (answer c).andThen fun x rest => (next x rest).outcome answer
  | turn c => answer c

def calls (answer : Call → Progress) : Work → List Call
  | done _ => []
  | call c next =>
    c :: match (answer c).result with
      | .error _ => []
      | .ok (x, rest) => (next x rest).calls answer
  | turn c => [c]

theorem mem_calls_call {answer : Call → Progress} {c c' : Call}
    {next : Float → List Token → Work} :
    c' ∈ (call c next).calls answer ↔
      c' = c ∨ ∃ x rest, (answer c).result = .ok (x, rest) ∧ c' ∈ (next x rest).calls answer := by
  rw [calls, List.mem_cons]
  cases (answer c).result with
  | error fault => simp
  | ok first =>
    refine or_congr_right ⟨fun h => ⟨first.1, first.2, rfl, h⟩, ?_⟩
    rintro ⟨x, rest, ⟨⟩, h⟩
    exact h

/-- What the work comes to depends on the answers to the calls that are made, and on no others. -/
theorem outcome_congr {answer answer' : Call → Progress} {w : Work}
    (alike : ∀ c ∈ w.calls answer, answer' c = answer c) :
    w.outcome answer' = w.outcome answer := by
  induction w with
  | done p => rfl
  | call c next ih =>
    apply Progress.andThen_congr (alike c (mem_calls_call.mpr (.inl rfl)))
    intro x rest ok
    exact ih x rest fun c' hc' => alike c' (mem_calls_call.mpr (.inr ⟨x, rest, ok, hc'⟩))
  | turn c => exact alike c (List.mem_singleton_self c)

end Work

variable (env : Environment)

def Call.work : Call → Work
  | expression ts => .call (term ts) fun x rest => .turn (sums x rest)
  | sums total [] => .done (.value total [] [])
  | sums total (t :: rest) =>
    match Token.additive? t with
    | none => .done (.value total (t :: rest) [])
    | some op => .call (term rest) fun x more => .turn (sums (op.apply total x) more)
  | term ts => .call (factor ts) fun x rest => .turn (products x rest)
  | products product [] => .done (.value product [] [])
  | products product (t :: rest) =>
    match Token.multiplicative? t with
    | none => .done (.value product (t :: rest) [])
    | some op =>
      .call (factor rest) fun x more =>
        if op = .div ∧ x == 0.0 then .done (.stop .divideByZero [])
        else .turn (products (op.apply product x) more)
  | factor [] => .done (.stop .invalidNumber [])
  | factor (t :: rest) =>
    if t = "(" then .call (expression rest) fun x more => .done (closing x more)
    else .done (operandProgress env t rest)

theorem Call.progress_eq_outcome (c : Call) :
    c.progress env = (c.work env).outcome (progress env) := by
  cases c with
  | expression ts => exact progress_expression env ts
  | sums total ts =>
    cases ts with
    | nil => exact progress_sums_nil env total
    | cons t rest =>
      rw [progress, progress_sums_cons, work]
      cases Token.additive? t <;> rfl
  | term ts => exact progress_term env ts
  | products product ts =>
    cases ts with
    | nil => exact progress_products_nil env product
    | cons t rest =>
      rw [progress, progress_products_cons, work]
      cases Token.multiplicative? t with
      | none => rfl
      | some op =>
        apply Progress.andThen_congr rfl
        intro x more _
        by_cases zero : op = .div ∧ x == 0.0
        · simp only [quotient, if_pos zero, Work.outcome]
        · simp only [quotient, if_neg zero, Work.outcome, progress]
  | factor ts =>
    cases ts with
    | nil => exact progress_factor_nil env
    | cons t rest =>
      by_cases opening : t = "("
      · subst opening
        rw [progress, progress_factor_open, work, if_pos rfl]
        rfl
      · rw [progress, progress_factor_operand env opening, work, if_neg opening]
        rfl

def Makes (c c' : Call) : Prop := c' ∈ (c.work env).calls (Call.progress env)

variable {env}

/-! What a single call leaves to those that it makes. -/

theorem makes_expression {ts : List Token} {c : Call} (h : Makes env (.expression ts) c) :
    c = .term ts ∨ ∃ x rest, (term env ts).progress.result = .ok (x, rest) ∧ c = .sums x rest := by
  rcases Work.mem_calls_call.mp h with rfl | ⟨x, rest, first, h⟩
  · exact .inl rfl
  · exact .inr ⟨x, rest, first, List.mem_singleton.mp h⟩

theorem makes_sums {total : Float} {ts : List Token} {c : Call} (h : Makes env (.sums total ts) c) :
    ∃ t rest, ts = t :: rest ∧ (c = .term rest ∨
      ∃ x more sum, (term env rest).progress.result = .ok (x, more) ∧ c = .sums sum more) := by
  cases ts with
  | nil => cases h
  | cons t rest =>
    rw [Makes, Call.work] at h
    refine ⟨t, rest, rfl, ?_⟩
    cases hop : Token.additive? t with
    | none =>
      rw [hop] at h
      cases h
    | some op =>
      rw [hop] at h
      rcases Work.mem_calls_call.mp h with rfl | ⟨x, more, first, h⟩
      · exact .inl rfl
      · exact .inr ⟨x, more, _, first, List.mem_singleton.mp h⟩

theorem makes_term {ts : List Token} {c : Call} (h : Makes env (.term ts) c) :
    c = .factor ts ∨
      ∃ x rest, (factor env ts).progress.result = .ok (x, rest) ∧ c = .products x rest := by
  rcases Work.mem_calls_call.mp h with rfl | ⟨x, rest, first, h⟩
  · exact .inl rfl
  · exact .inr ⟨x, rest, first, List.mem_singleton.mp h⟩

theorem makes_products {product : Float} {ts : List Token} {c : Call}
    (h : Makes env (.products product ts) c) :
    ∃ t rest, ts = t :: rest ∧ (c = .factor rest ∨
      ∃ x more y, (factor env rest).progress.result = .ok (x, more) ∧ c = .products y more) := by
  cases ts with
  | nil => cases h
  | cons t rest =>
    rw [Makes, Call.work] at h
    refine ⟨t, rest, rfl, ?_⟩
    cases hop : Token.multiplicative? t with
    | none =>
      rw [hop] at h
      cases h
    | some op =>
      rw [hop] at h
      rcases Work.mem_calls_call.mp h with rfl | ⟨x, more, first, h⟩
      · exact .inl rfl
      · split at h
        · cases h
        · exact .inr ⟨x, more, _, first, List.mem_singleton.mp h⟩

theorem makes_factor {ts : List Token} {c : Call} (h : Makes env (.factor ts) c) :
    ∃ rest, ts = "(" :: rest ∧ c = .expression rest := by
  cases ts with
  | nil => cases h
  | cons t rest =>
    rw [Makes, Call.work] at h
    split at h
    · rename_i opening
      rcases Work.mem_calls_call.mp h with rfl | ⟨x, more, _, h⟩
      · exact ⟨rest, by rw [opening], rfl⟩
      · cases h
    · cases h

/-- What a call may leave to another: some tokens once one has been read, or all of them to a rule
of a lower level that does not recur. -/
structure Call.LeavesTo (c c' : Call) : Prop where
  suffix : c'.remaining <:+ c.remaining
  fewer : c'.remaining.length < c.remaining.length ∨ c'.recurs = false ∧ c'.level < c.level

theorem Call.leavesTo_of_suffix {c c' : Call} {t : Token} {rest : List Token}
    (h : c'.remaining <:+ rest) (read : c.remaining = t :: rest) : c.LeavesTo c' := by
  refine ⟨?_, .inl ?_⟩
  · rw [read]
    exact h.trans (List.suffix_cons t rest)
  · rw [read, List.length_cons]
    exact Nat.lt_succ_of_le h.length_le

theorem leavesTo_of_makes {c c' : Call} (h : Makes env c c') : c.LeavesTo c' := by
  cases c with
  | expression ts =>
    rcases makes_expression h with rfl | ⟨x, rest, first, rfl⟩
    · exact ⟨List.suffix_refl ts, .inr ⟨rfl, Nat.lt_succ_self 1⟩⟩
    · exact ⟨suffix_of_term first, .inl (Step.length_lt first)⟩
  | sums total ts =>
    obtain ⟨t, rest, rfl, rfl | ⟨x, more, sum, first, rfl⟩⟩ := makes_sums h
    · exact Call.leavesTo_of_suffix (List.suffix_refl rest) rfl
    · exact Call.leavesTo_of_suffix (suffix_of_term first) rfl
  | term ts =>
    rcases makes_term h with rfl | ⟨x, rest, first, rfl⟩
    · exact ⟨List.suffix_refl ts, .inr ⟨rfl, Nat.lt_succ_self 0⟩⟩
    · exact ⟨suffix_of_factor first, .inl (Step.length_lt first)⟩
  | products product ts =>
    obtain ⟨t, rest, rfl, rfl | ⟨x, more, y, first, rfl⟩⟩ := makes_products h
    · exact Call.leavesTo_of_suffix (List.suffix_refl rest) rfl
    · exact Call.leavesTo_of_suffix (suffix_of_factor first) rfl
  | factor ts =>
    obtain ⟨rest, rfl, rfl⟩ := makes_factor h
    exact Call.leavesTo_of_suffix (List.suffix_refl rest) rfl

/-! Chains of calls. -/

/-- Behind an open parenthesis an expression comes to another one. -/
theorem chain_of_parenthesis (rest : List Token) :
    Relation.TransGen (Makes env) (.expression ("(" :: rest)) (.expression rest) := by
  have first : Makes env (.expression ("(" :: rest)) (.term ("(" :: rest)) :=
    Work.mem_calls_call.mpr (.inl rfl)
  have second : Makes env (.term ("(" :: rest)) (.factor ("(" :: rest)) :=
    Work.mem_calls_call.mpr (.inl rfl)
  have third : Makes env (.factor ("(" :: rest)) (.expression rest) := by
    rw [Makes, Call.work, if_pos rfl]
    exact Work.mem_calls_call.mpr (.inl rfl)
  exact ((Relation.TransGen.single first).tail second).tail third

theorem suffix_of_chain {c c' : Call} (h : Relation.ReflTransGen (Makes env) c c') :
    c'.remaining <:+ c.remaining := by
  induction h with
  | refl => exact List.suffix_refl c.remaining
  | tail _ last ih => exact (leavesTo_of_makes last).suffix.trans ih

/-- Where a chain of calls comes to an expression or to a turn of a loop, fewer tokens are left. -/
theorem fewer_of_chain {c c' : Call} (h : Relation.TransGen (Makes env) c c')
    (recurs : c'.recurs = true) :
    c'.remaining <:+ c.remaining ∧ c'.remaining.length < c.remaining.length := by
  obtain ⟨b, front, last⟩ := Relation.TransGen.tail'_iff.mp h
  have left := suffix_of_chain front
  have step := leavesTo_of_makes last
  -- no call gives tokens back, so it is the last one that decides
  refine ⟨step.suffix.trans left, ?_⟩
  rcases step.fewer with fewer | ⟨plain, _⟩
  · exact Nat.lt_of_lt_of_le fewer left.length_le
  · rw [recurs] at plain
    cases plain

/-- Each token can be read at three levels. -/
def Call.weight (c : Call) : Nat := 3 * c.remaining.length + c.level

theorem weight_lt_of_makes {c c' : Call} (h : Makes env c c') : c'.weight < c.weight := by
  have level : c'.level ≤ 2 := by cases c' <;> simp [Call.level]
  have step := leavesTo_of_makes h
  have length := step.suffix.length_le
  unfold Call.weight
  rcases step.fewer with fewer | ⟨_, lower⟩
  · omega
  · omega

theorem makes_wellFounded (env : Environment) : WellFounded fun c' c : Call => Makes env c c' :=
  Subrelation.wf (fun h => weight_lt_of_makes h) (measure Call.weight).wf

/-- Answers that agree with the work of every call are those of the rules. -/
theorem eq_progress_of_outcome {answer : Call → Progress}
    (agrees : ∀ c, answer c = (c.work env).outcome answer) : answer = Call.progress env := by
  funext c
  induction c using (makes_wellFounded env).induction with
  | _ c ih => rw [agrees, Call.progress_eq_outcome, Work.outcome_congr ih]

end FormulaSheet
