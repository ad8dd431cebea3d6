import FormulaSheet.Proofs.Formula.LeftToRight
import FormulaSheet.Proofs.Formula.Locality
/-!
The labels that an evaluation looks up are those that a reading from left to right comes to where an
operand is due, up to the place where it stops. The last of them may be what stops it.
-/

namespace FormulaSheet

namespace Reader

variable {env : Environment}

theorem advance_cons (r : Reader) (t : Token) (ts : List Token) :
    r.advance env (t :: ts) = (r.step env t).bind (·.advance env ts) := by
  rw [advance, List.foldlM_cons]
  rfl

/-- The token stands for an operand at the place reached, and for a label. -/
def TakesForLabel (env : Environment) (r : Reader) (t : Token) : Prop :=
  (∃ depth outer, r.standing = .operandDue depth outer) ∧ t ≠ "(" ∧ env.isLabel t = true

theorem mem_labels_visits {r : Reader} {t label : Token} :
    label ∈ (r.visits env t).filterMap Visit.label? ↔ label = t ∧ r.TakesForLabel env t := by
  obtain ⟨standing, last⟩ := r
  cases standing with
  | behindFactor sum product outer =>
    constructor
    · intro h
      cases h
    · rintro ⟨_, ⟨_, _, due⟩, _⟩
      cases due
  | operandDue depth outer =>
    have due : ∃ depth' outer', Standing.operandDue depth outer = .operandDue depth' outer' :=
      ⟨depth, outer, rfl⟩
    rw [visits]
    by_cases opening : t = "("
    · rw [if_pos opening]
      constructor
      · intro h
        cases h
      · rintro ⟨_, _, apart, _⟩
        exact absurd opening apart
    · rw [if_neg opening]
      by_cases known : env.isLabel t = true
      · rw [if_pos known]
        constructor
        · intro h
          exact ⟨List.mem_singleton.mp h, due, opening, known⟩
        · rintro ⟨rfl, _⟩
          exact List.mem_singleton_self label
      · rw [if_neg known]
        constructor
        · intro h
          cases hx : t.number? with
          | none =>
            rw [hx] at h
            cases h
          | some x =>
            rw [hx] at h
            cases h
        · rintro ⟨_, _, _, label⟩
          exact absurd label known

theorem mem_labels_watch {r : Reader} {ts : List Token} {label : Token} :
    label ∈ (r.watch env ts).met.filterMap Visit.label? ↔
      ∃ front behind r', ts = front ++ label :: behind ∧ r.advance env front = .ok r' ∧
        r'.TakesForLabel env label := by
  induction ts generalizing r with
  | nil =>
    constructor
    · intro h
      cases h
    · rintro ⟨front, behind, _, split, _⟩
      cases front <;> cases split
  | cons t rest ih =>
    rw [watch_cons, Watched.behind, List.filterMap_append, List.mem_append, mem_labels_visits]
    constructor
    · rintro (⟨rfl, here⟩ | later)
      · exact ⟨[], rest, r, rfl, rfl, here⟩
      · cases stepped : r.step env t with
        | error stop =>
          rw [stepped] at later
          cases later
        | ok next =>
          rw [stepped] at later
          obtain ⟨front, behind, r', rfl, advanced, there⟩ := ih.mp later
          refine ⟨t :: front, behind, r', rfl, ?_, there⟩
          rw [advance_cons, stepped]
          exact advanced
    · rintro ⟨front, behind, r', split, advanced, there⟩
      cases front with
      | nil =>
        cases split
        cases advanced
        exact .inl ⟨rfl, there⟩
      | cons t' front =>
        cases split
        rw [advance_cons] at advanced
        cases stepped : r.step env t with
        | error stop =>
          rw [stepped] at advanced
          cases advanced
        | ok next =>
          rw [stepped] at advanced
          exact .inr (ih.mpr ⟨front, behind, r', rfl, advanced, there⟩)

end Reader

variable {env : Environment} {tokens : List Token} {label : Token}

theorem trace_expression (ts : List Token) :
    (expression env ts).progress.trace = (Reader.watch env {} ts).met := by
  rw [(Reader.watch_progress env ts).2.2 [] none, Progress.watch]
  cases (expression env ts).progress.result with
  | error fault => rfl
  | ok read =>
    obtain ⟨x, rest⟩ := read
    cases rest with
    | nil => exact (List.append_nil _).symm
    | cons t rest => exact (List.append_nil _).symm

theorem trace_conclude (trailing : Bool) (p : Progress) : (conclude trailing p).trace = p.trace := by
  obtain ⟨result, trace⟩ := p
  cases result with
  | error fault => rfl
  | ok read =>
    obtain ⟨x, rest⟩ := read
    cases rest <;> rfl

/-- A reading of the formula, less an operator at its end, comes to the label before it stops, where
an operand is due. -/
def LooksUp (env : Environment) (tokens : List Token) (label : Token) : Prop :=
  ∃ front behind r, withoutTrailing tokens = front ++ label :: behind ∧
    Reader.advance env {} front = .ok r ∧ r.TakesForLabel env label

theorem mem_labels_evaluate : label ∈ (evaluate env tokens).labels ↔ LooksUp env tokens label := by
  by_cases empty : tokens = []
  · subst empty
    constructor
    · intro h
      cases h
    · rintro ⟨front, behind, _, split, _⟩
      cases front <;> cases split
  · rw [Evaluation.labels, evaluate_of_ne_nil env empty, trace_conclude, trace_expression]
    exact Reader.mem_labels_watch

theorem LooksUp.isLabel (h : LooksUp env tokens label) : env.isLabel label = true := by
  obtain ⟨_, _, _, _, _, _, _, known⟩ := h
  exact known

theorem LooksUp.mem (h : LooksUp env tokens label) : label ∈ tokens := by
  obtain ⟨front, behind, _, split, _⟩ := h
  apply withoutTrailing_subset tokens
  rw [split]
  exact List.mem_append_right front List.mem_cons_self

end FormulaSheet
