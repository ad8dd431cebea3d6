import FormulaSheet.Proofs.Formula.LeftToRight
/-!
The faults that evaluation can tell: those that arise in the formula itself, and those of the cells
it refers to, except that such a cell is empty.
-/

namespace FormulaSheet

/-- The faults that do not come from a reference. -/
def Fault.arising : List Fault :=
  [.invalidNumber, .divideByZero, .missingParentheses, .invalidFormula]

namespace Reader

variable {env : Environment}

theorem fault_of_arrive {x : Float} {depth : Depth} {outer : List Depth} {last : Option Float}
    {stop : Stop} (h : arrive x depth outer last = .error stop) : stop.fault = .divideByZero := by
  unfold arrive at h
  split at h
  · cases h
    rfl
  · cases h

theorem fault_of_close {x : Float} {last : Option Float} {t : Token} {outer : List Depth}
    {stop : Stop} (h : close x last t outer = .error stop) : stop.fault ∈ Fault.arising := by
  cases outer with
  | nil =>
    cases h
    simp [Fault.arising]
  | cons depth outer =>
    rw [close] at h
    split at h
    · rw [fault_of_arrive h]
      decide
    · cases h
      simp [Fault.arising]

theorem fault_of_operandValue {t : Token} {fault : Fault}
    (h : operandValue env t = .error fault) :
    fault ∈ Fault.arising ∨ env.resolve t = .error fault := by
  unfold operandValue at h
  split at h
  · exact .inr h
  · split at h
    · cases h
    · cases h
      exact .inl (by decide)

theorem fault_of_step {r : Reader} {t : Token} {stop : Stop} (h : r.step env t = .error stop) :
    stop.fault ∈ Fault.arising ∨ env.resolve t = .error stop.fault := by
  obtain ⟨standing, last⟩ := r
  cases standing with
  | operandDue depth outer =>
    rw [step] at h
    split at h
    · cases h
    · split at h
      · rename_i fault unresolved
        cases h
        exact fault_of_operandValue unresolved
      · rw [fault_of_arrive h]
        exact .inl (by decide)
  | behindFactor sum product outer =>
    rw [step] at h
    split at h
    · cases h
    · split at h
      · cases h
      · exact .inl (fault_of_close h)

theorem fault_of_finish {r : Reader} {stop : Stop} (h : r.finish = .error stop) :
    stop.fault ∈ Fault.arising := by
  obtain ⟨standing, last⟩ := r
  cases standing with
  | operandDue depth outer =>
    cases h
    simp [Fault.arising]
  | behindFactor sum product outer =>
    cases outer with
    | nil => cases h
    | cons depth outer =>
      cases h
      simp [Fault.arising]

theorem fault_of_read {ts : List Token} {r : Reader} {stop : Stop}
    (h : r.read env ts = .error stop) :
    stop.fault ∈ Fault.arising ∨ ∃ t ∈ ts, env.resolve t = .error stop.fault := by
  induction ts generalizing r with
  | nil => exact .inl (fault_of_finish h)
  | cons t rest ih =>
    rw [read_cons] at h
    cases hr : r.step env t with
    | error earlier =>
      rw [hr] at h
      cases h
      rcases fault_of_step hr with arising | unresolved
      · exact .inl arising
      · exact .inr ⟨t, List.mem_cons_self, unresolved⟩
    | ok r' =>
      rw [hr] at h
      rcases ih h with arising | ⟨d, hd, unresolved⟩
      · exact .inl arising
      · exact .inr ⟨d, List.mem_cons_of_mem t hd, unresolved⟩

end Reader

theorem fault_of_resolve {env : Environment} {label : Token} {fault : Fault}
    (h : env.resolve label = .error fault) :
    fault = .invalidCell ∨
      fault ≠ .emptyFormula ∧ ∃ cell, env.read label = some cell ∧ cell.fault = some fault := by
  unfold Environment.resolve at h
  split at h
  · cases h
    exact .inl rfl
  · rename_i cell hc
    split at h
    · rename_i fault' kept
      cases h
      obtain ⟨carried, other⟩ := Option.filter_eq_some_iff.mp kept
      exact .inr ⟨of_decide_eq_true other, cell, hc, carried⟩
    · split at h
      · cases h
      · cases h
        exact .inl rfl

/-- The faults of the cells that can be referred to are of the known kinds. -/
def Environment.KnownFaults (env : Environment) : Prop :=
  ∀ label cell, env.read label = some cell → ∀ fault ∈ cell.fault, fault ∈ Fault.kinds

/-- The fault of a formula that is not empty is of a known kind, and the formula is not empty. -/
theorem fault_of_evaluate {env : Environment} (known : env.KnownFaults) {tokens : List Token}
    (filled : tokens ≠ []) {fault : Fault} (h : (evaluate env tokens).outcome.fault = some fault) :
    fault ∈ Fault.kinds ∧ fault ≠ .emptyFormula := by
  have inKinds : ∀ f ∈ Fault.arising, f ∈ Fault.kinds ∧ f ≠ .emptyFormula := by decide
  rw [outcome_evaluate env filled] at h
  cases hr : Reader.read env {} (withoutTrailing tokens) with
  | ok x =>
    rw [hr, settle] at h
    split at h
    · cases h
      decide
    · cases h
  | error stop =>
    rw [hr] at h
    cases h
    rcases Reader.fault_of_read hr with arising | ⟨t, _, unresolved⟩
    · exact inKinds _ arising
    · rcases fault_of_resolve unresolved with invalid | ⟨other, cell, hc, carried⟩
      · rw [invalid]
        decide
      · exact ⟨known t cell hc _ carried, other⟩

/-- A division by zero is shown as infinity, wherever it happened. -/
theorem result_of_divideByZero {env : Environment} {tokens : List Token}
    (h : (evaluate env tokens).outcome.fault = some .divideByZero) :
    (evaluate env tokens).outcome.result = 1.0 / 0.0 := by
  have filled : tokens ≠ [] := by
    rintro rfl
    cases h
  rw [outcome_evaluate env filled] at h ⊢
  cases hr : Reader.read env {} (withoutTrailing tokens) with
  | ok x =>
    rw [hr, settle] at h
    split at h
    · cases h
    · cases h
  | error stop =>
    rw [hr] at h
    have division : stop.fault = .divideByZero := Option.some.inj h
    have infinite : ((1.0 / 0.0 : Float) == 0.0) = false := by decide
    rw [settle, Stop.outcome, division, if_pos rfl, infinite]
    rfl

end FormulaSheet
