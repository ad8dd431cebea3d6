import FormulaSheet.Proofs.Formula.LeftToRight
import Mathlib.Data.List.Basic
/-!
A reference against the formula it leads to, in parentheses. A formula with a value, read between
parentheses, brings a reading to the place where its value as an operand would bring it, but for the
operand read last; and from places that differ in no more than that two readings come to the same
fault or the same value.
-/

namespace FormulaSheet

/-- The tokens with a formula in parentheses for each occurrence of the label. -/
def inlined (label : Token) (formula ts : List Token) : List Token :=
  ts.flatMap fun t => if t = label then "(" :: (formula ++ [")"]) else [t]

section Inline

variable {label : Token} {formula : List Token}

theorem inlined_append (front behind : List Token) :
    inlined label formula (front ++ behind) =
      inlined label formula front ++ inlined label formula behind :=
  List.flatMap_append

theorem inlined_cons_label (rest : List Token) :
    inlined label formula (label :: rest) =
      "(" :: (formula ++ ")" :: inlined label formula rest) := by
  rw [inlined, List.flatMap_cons, if_pos rfl, List.cons_append, List.append_assoc]
  rfl

theorem inlined_cons_of_ne {t : Token} (h : t ≠ label) (rest : List Token) :
    inlined label formula (t :: rest) = t :: inlined label formula rest := by
  rw [inlined, List.flatMap_cons, if_neg h]
  rfl

theorem inlined_cons_ne_nil (t : Token) (rest : List Token) :
    inlined label formula (t :: rest) ≠ [] := by
  by_cases here : t = label
  · rw [here, inlined_cons_label]
    exact List.cons_ne_nil _ _
  · rw [inlined_cons_of_ne here]
    exact List.cons_ne_nil _ _

/-- Neither the label nor the parenthesis in its place is an operator, so the same operator is set
aside at the end. -/
theorem trailing_inlined (plain : Token.isOperator label = false) (ts : List Token) :
    (inlined label formula ts).getLast?.any Token.isOperator =
        ts.getLast?.any Token.isOperator ∧
      withoutTrailing (inlined label formula ts) =
        inlined label formula (withoutTrailing ts) := by
  rcases List.eq_nil_or_concat' ts with rfl | ⟨front, t, rfl⟩
  · exact ⟨rfl, rfl⟩
  · by_cases here : t = label
    · subst here
      have last : inlined t formula (front ++ [t]) =
          (inlined t formula front ++ "(" :: formula) ++ [")"] := by
        rw [inlined_append, inlined_cons_label, List.append_assoc]
        rfl
      have kept : (inlined t formula (front ++ [t])).getLast?.any Token.isOperator = false := by
        rw [last, List.getLast?_concat]
        rfl
      have keptBefore : (front ++ [t]).getLast?.any Token.isOperator = false := by
        rw [List.getLast?_concat, Option.any_some, plain]
      rw [kept, keptBefore, withoutTrailing_eq_self kept, withoutTrailing_eq_self keptBefore]
      exact ⟨rfl, rfl⟩
    · have last : inlined label formula (front ++ [t]) = inlined label formula front ++ [t] := by
        rw [inlined_append, inlined_cons_of_ne here]
        rfl
      rw [last, List.getLast?_concat, List.getLast?_concat, withoutTrailing_append_singleton,
        withoutTrailing_append_singleton]
      refine ⟨rfl, ?_⟩
      split
      · rfl
      · exact last.symm

end Inline

theorem Progress.resume_of_ok {p : Progress} {x : Float} {rest : List Token}
    (h : p.result = .ok (x, rest)) (last : Option Float)
    (next : Float → List Token → Option Float → Except Stop Float) :
    p.resume last next = next x rest (lastOf last p.trace) := by
  rw [resume, h]

namespace Reader

variable {env : Environment}

/-- A formula with a value is an operand, in parentheses. -/
theorem read_parenthesised (plain : Grammar.Plain env.isLabel) {formula : List Token} {x : Float}
    (value : (evaluate env formula).outcome = ⟨x, none⟩) (depth : Depth) (outer : List Depth)
    (last : Option Float) (rest : List Token) :
    ∃ last', read env ⟨.operandDue depth outer, last⟩ ("(" :: (formula ++ ")" :: rest)) =
      (arrive x depth outer last').bind (·.read env rest) := by
  have fault : (evaluate env formula).outcome.fault = none := by rw [value]
  have progress := progress_of_fault_eq_none fault
  rw [value] at progress
  obtain ⟨e, tokens, rfl, clear⟩ := (tree_of_progress env).1 formula x [] progress
  rw [List.append_nil] at tokens
  subst tokens
  have operand : (factor env ("(" :: (e.tokens ++ ")" :: rest))).progress.result =
      .ok (e.value env, rest) := by
    have read := @Grammar.Factor.read env plain (.parentheses e) clear rest
    rw [Grammar.Factor.tokens, List.cons_append, List.append_assoc, List.singleton_append] at read
    exact read
  rw [(read_progress env _).1 depth outer last, Progress.resume_of_ok operand]
  exact ⟨_, rfl⟩

/-- What a step comes to, but for the operand read last. -/
def place : Except Stop Reader → Except Fault Standing
  | .error stop => .error stop.fault
  | .ok r => .ok r.standing

theorem place_arrive (x : Float) (depth : Depth) (outer : List Depth) (last last' : Option Float) :
    place (arrive x depth outer last) = place (arrive x depth outer last') := by
  unfold arrive
  split <;> rfl

theorem place_close (x : Float) (last last' : Option Float) (t : Token) (outer : List Depth) :
    place (close x last t outer) = place (close x last' t outer) := by
  cases outer with
  | nil => rfl
  | cons depth outer =>
    rw [close, close]
    split
    · exact place_arrive x depth outer last last'
    · rfl

theorem place_step (env : Environment) (standing : Standing) (last last' : Option Float)
    (t : Token) : place (step env ⟨standing, last⟩ t) = place (step env ⟨standing, last'⟩ t) := by
  cases standing with
  | operandDue depth outer =>
    rw [step, step]
    split
    · rfl
    · cases operandValue env t with
      | error fault => rfl
      | ok x => rfl
  | behindFactor sum product outer =>
    rw [step, step]
    cases Token.multiplicative? t with
    | some op => rfl
    | none =>
      cases Token.additive? t with
      | some op => rfl
      | none => exact place_close (combine sum product) last last' t outer

/-- The value of a reading, or its fault. -/
def verdict (read : Except Stop Float) : Except Fault Float := read.mapError Stop.fault

theorem verdict_bind_congr {first first' : Except Stop Reader}
    {next next' : Reader → Except Stop Float} (same : place first = place first')
    (alike : ∀ standing last last',
      verdict (next ⟨standing, last⟩) = verdict (next' ⟨standing, last'⟩)) :
    verdict (first.bind next) = verdict (first'.bind next') := by
  cases first with
  | error stop =>
    cases first' with
    | error stop' =>
      simp only [place, Except.error.injEq] at same
      simp only [Except.bind, verdict, Except.mapError, same]
    | ok r' => cases same
  | ok r =>
    cases first' with
    | error stop' => cases same
    | ok r' =>
      obtain ⟨standing, last⟩ := r
      obtain ⟨standing', last'⟩ := r'
      cases same
      exact alike standing last last'

/-- Behind a complete factor neither a reference nor a parenthesis can open. -/
theorem read_behind_of_operand {t : Token} (operator : Token.isOperator t = false)
    (closes : t ≠ ")") (sum : Option Waiting) (product : Float) (outer : List Depth)
    (last : Option Float) (rest : List Token) :
    verdict (read env ⟨.behindFactor sum product outer, last⟩ (t :: rest)) =
      .error (if outer = [] then .invalidFormula else .missingParentheses) := by
  obtain ⟨additive, multiplicative⟩ := Bool.or_eq_false_iff.mp operator
  rw [Option.isSome_eq_false_iff, Option.isNone_iff_eq_none] at additive multiplicative
  rw [read_cons, step, multiplicative, additive]
  cases outer with
  | nil => rfl
  | cons depth outer =>
    dsimp only
    rw [close, if_neg closes]
    rfl

theorem verdict_inlined (plain : Grammar.Plain env.isLabel) {label : Token} {formula : List Token}
    {x : Float} (known : env.isLabel label = true) (resolved : env.resolve label = .ok x)
    (value : (evaluate env formula).outcome = ⟨x, none⟩) (ts : List Token) :
    ∀ standing last last', verdict (read env ⟨standing, last⟩ (inlined label formula ts)) =
      verdict (read env ⟨standing, last'⟩ ts) := by
  have apart : ∀ symbol ∈ Grammar.symbols, label ≠ symbol :=
    fun _ => Grammar.label_ne_symbol plain known
  induction ts with
  | nil =>
    intro standing last last'
    cases standing with
    | operandDue depth outer => rfl
    | behindFactor sum product outer =>
      cases outer with
      | nil => rfl
      | cons depth outer => rfl
  | cons t rest ih =>
    intro standing last last'
    by_cases here : t = label
    · subst here
      rw [inlined_cons_label]
      cases standing with
      | operandDue depth outer =>
        -- the formula between its parentheses arrives with the value of the reference
        obtain ⟨inner, entered⟩ := read_parenthesised plain value depth outer last
          (inlined t formula rest)
        rw [entered, read_cons, step, if_neg (apart "(" (by decide)), operandValue, if_pos known,
          resolved]
        exact verdict_bind_congr (place_arrive x depth outer inner (some x)) ih
      | behindFactor sum product outer =>
        -- no operand is due, so the label is as wrong here as the parenthesis
        have operator : Token.isOperator t = false :=
          Grammar.isOperator_eq_false fun mem => apart t mem rfl
        rw [read_behind_of_operand rfl (by decide),
          read_behind_of_operand operator (apart ")" (by decide))]
    · rw [inlined_cons_of_ne here, read_cons, read_cons]
      exact verdict_bind_congr (place_step env standing last last' t) ih

end Reader

theorem fault_settle (trailing : Bool) (read : Except Stop Float) :
    (settle trailing read).fault =
      match Reader.verdict read with
      | .error fault => some fault
      | .ok _ => if trailing then some .invalidFormula else none := by
  cases read with
  | error stop => rfl
  | ok x => rfl

theorem result_settle {trailing : Bool} {read : Except Stop Float}
    (h : (settle trailing read).fault = none) :
    Reader.verdict read = .ok (settle trailing read).result := by
  cases read with
  | error stop => cases h
  | ok x => rfl

/-- A formula with a value stands for any reference that has this value: in whichever places of
other tokens it is put, in parentheses, the fault is the same, and so is the result if there is no
fault. -/
theorem evaluate_inlined {env : Environment} (plain : Grammar.Plain env.isLabel) {label : Token}
    {formula : List Token} {x : Float} (known : env.isLabel label = true)
    (resolved : env.resolve label = .ok x)
    (value : (evaluate env formula).outcome = ⟨x, none⟩) (ts : List Token) :
    (evaluate env (inlined label formula ts)).outcome.fault = (evaluate env ts).outcome.fault ∧
      ((evaluate env ts).outcome.fault = none →
        (evaluate env (inlined label formula ts)).outcome.result =
          (evaluate env ts).outcome.result) := by
  cases ts with
  | nil => exact ⟨rfl, fun _ => rfl⟩
  | cons t rest =>
    have operator : Token.isOperator label = false :=
      Grammar.isOperator_eq_false fun mem => Grammar.label_ne_symbol plain known mem rfl
    obtain ⟨trailing, body⟩ := @trailing_inlined label formula operator (t :: rest)
    rw [outcome_evaluate env (inlined_cons_ne_nil t rest),
      outcome_evaluate env (List.cons_ne_nil t rest), trailing, body]
    have same := Reader.verdict_inlined plain known resolved value (withoutTrailing (t :: rest))
      (.operandDue {} []) none none
    have fault : ∀ trailing,
        (settle trailing (Reader.read env {}
          (inlined label formula (withoutTrailing (t :: rest))))).fault =
        (settle trailing (Reader.read env {} (withoutTrailing (t :: rest)))).fault := by
      intro trailing
      rw [fault_settle, fault_settle, same]
    refine ⟨fault _, ?_⟩
    intro sound
    have value := result_settle ((fault _).trans sound)
    rw [same, result_settle sound] at value
    exact (Except.ok.inj value).symm

end FormulaSheet
