import FormulaSheet.Proofs.Formula.Parsing
/-!
Evaluation looks at an environment only through the tokens of the formula: which of them are labels,
and what those resolve to. Environments that agree on that much give the same outcome and meet the
same operands.
-/

namespace FormulaSheet

/-- The environments take the same of the tokens for labels and resolve those alike. -/
def Environment.AgreeOn (ts : List Token) (env env' : Environment) : Prop :=
  ∀ t ∈ ts, env.isLabel t = env'.isLabel t ∧ (env.isLabel t = true → env.resolve t = env'.resolve t)

theorem Environment.AgreeOn.mono {ts rest : List Token} {env env' : Environment}
    (h : AgreeOn ts env env') (sub : rest ⊆ ts) : AgreeOn rest env env' :=
  fun t ht => h t (sub ht)

variable {env env' : Environment}

theorem suffix_of_term {ts rest : List Token} {x : Float}
    (h : (term env ts).progress.result = .ok (x, rest)) : rest <:+ ts := by
  obtain ⟨t, rfl, _⟩ := (tree_of_progress env).2.2.1 ts x rest h
  exact List.suffix_append t.tokens rest

theorem suffix_of_factor {ts rest : List Token} {x : Float}
    (h : (factor env ts).progress.result = .ok (x, rest)) : rest <:+ ts := by
  obtain ⟨f, rfl, _⟩ := (tree_of_progress env).2.2.2.2 ts x rest h
  exact List.suffix_append f.tokens rest

theorem operandProgress_congr {t : Token} {rest : List Token}
    (agree : Environment.AgreeOn (t :: rest) env env') :
    operandProgress env t rest = operandProgress env' t rest := by
  obtain ⟨same, alike⟩ := agree t List.mem_cons_self
  unfold operandProgress
  rw [← same]
  split
  · rename_i label
    rw [alike label]
  · rfl

theorem progress_congr :
    (∀ ts, Environment.AgreeOn ts env env' →
      (expression env ts).progress = (expression env' ts).progress) ∧
    (∀ x ts, Environment.AgreeOn ts env env' →
      (sums env x ts).progress = (sums env' x ts).progress) ∧
    (∀ ts, Environment.AgreeOn ts env env' →
      (term env ts).progress = (term env' ts).progress) ∧
    (∀ x ts, Environment.AgreeOn ts env env' →
      (products env x ts).progress = (products env' x ts).progress) ∧
    (∀ ts, Environment.AgreeOn ts env env' →
      (factor env ts).progress = (factor env' ts).progress) := by
  apply rules_induct
  case expression =>
    intro ts inTerm inSums agree
    rw [progress_expression, progress_expression]
    apply Progress.andThen_congr (inTerm agree)
    intro x rest h
    exact inSums x rest (Step.length_lt h) (agree.mono (suffix_of_term h).subset)
  case sums =>
    intro total ts inTerm inSums agree
    cases ts with
    | nil => rw [progress_sums_nil, progress_sums_nil]
    | cons t rest =>
      rw [progress_sums_cons, progress_sums_cons]
      cases Token.additive? t with
      | none => rfl
      | some op =>
        have behind := agree.mono (List.subset_cons_self t rest)
        apply Progress.andThen_congr (inTerm rest (Nat.lt_succ_self _) behind)
        intro x more h
        exact inSums _ more (Nat.lt_succ_of_lt (Step.length_lt h))
          (behind.mono (suffix_of_term h).subset)
  case term =>
    intro ts inFactor inProducts agree
    rw [progress_term, progress_term]
    apply Progress.andThen_congr (inFactor agree)
    intro x rest h
    exact inProducts x rest (Step.length_lt h) (agree.mono (suffix_of_factor h).subset)
  case products =>
    intro product ts inFactor inProducts agree
    cases ts with
    | nil => rw [progress_products_nil, progress_products_nil]
    | cons t rest =>
      rw [progress_products_cons, progress_products_cons]
      cases Token.multiplicative? t with
      | none => rfl
      | some op =>
        have behind := agree.mono (List.subset_cons_self t rest)
        apply Progress.andThen_congr (inFactor rest (Nat.lt_succ_self _) behind)
        intro x more h
        unfold quotient
        split
        · rfl
        · exact inProducts _ more (Nat.lt_succ_of_lt (Step.length_lt h))
            (behind.mono (suffix_of_factor h).subset)
  case factor =>
    intro ts inExpression agree
    cases ts with
    | nil => rw [progress_factor_nil, progress_factor_nil]
    | cons t rest =>
      by_cases opening : t = "("
      · subst opening
        rw [progress_factor_open, progress_factor_open]
        have behind := agree.mono (List.subset_cons_self "(" rest)
        exact Progress.andThen_congr (inExpression rest (Nat.lt_succ_self _) behind)
          fun _ _ _ => rfl
      · rw [progress_factor_operand env opening, progress_factor_operand env' opening]
        exact operandProgress_congr agree

theorem withoutTrailing_subset (tokens : List Token) : withoutTrailing tokens ⊆ tokens := by
  unfold withoutTrailing
  split
  · exact List.dropLast_subset tokens
  · exact fun _ ht => ht

/-- Outcome and operands depend on the environment through the tokens alone. -/
theorem evaluate_congr {tokens : List Token} (agree : Environment.AgreeOn tokens env env') :
    evaluate env tokens = evaluate env' tokens := by
  by_cases empty : tokens = []
  · subst empty
    rfl
  · rw [evaluate_of_ne_nil env empty, evaluate_of_ne_nil env' empty,
      progress_congr.1 _ (agree.mono (withoutTrailing_subset tokens))]

end FormulaSheet
