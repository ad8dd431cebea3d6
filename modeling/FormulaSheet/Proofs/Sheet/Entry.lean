import FormulaSheet.Proofs.Sheet.Meaning
/-!
Entering formulas. The tokens stand under the key of the label, the formulas under all other keys
are those of before, and the values are those of a recalculation, for which it does not matter what
the cells showed before.
-/

namespace FormulaSheet

/-- The tokens of a formula as it is entered. -/
def FormulaInput.read : FormulaInput → Except LexFailure (List Token)
  | .text s => tokenize s
  | .tokens ts => .ok ts

namespace Cell

theorem formula_setFormula (tokens : List Token) (c : Cell) :
    (c.setFormula tokens).formula = tokens := by
  cases tokens <;> rfl

theorem label_setFormula (tokens : List Token) (c : Cell) :
    (c.setFormula tokens).label = c.label := by
  cases tokens <;> rfl

theorem fault_setFormula_of_unfilled {tokens : List Token} {c : Cell}
    (h : (c.setFormula tokens).isFilled = false) :
    (c.setFormula tokens).fault = some .emptyFormula := by
  cases tokens with
  | nil => rfl
  | cons t rest => cases h

end Cell

namespace Sheet

theorem BlankOrSame.formula {s t : Sheet} {k : String} (h : BlankOrSame s t k) :
    t.formula k = s.formula k := by
  rcases h with same | ⟨none, blank⟩
  · rw [Sheet.formula, Sheet.formula, same]
  · rw [formula_of_cell? blank, Sheet.formula, none]
    rfl

/-- The second sheet is the first one with other tokens under one key, but for values and faults. -/
structure Stored (k : String) (tokens : List Token) (s t : Sheet) : Prop where
  rows : t.rows = s.rows
  columns : t.columns = s.columns
  own : t.SelfLabelled
  marked : s.BlanksMarked → t.BlanksMarked
  here : ∃ c, t.cell? k = some c ∧ c.formula = tokens
  elsewhere : ∀ k', k' ≠ k → t.formula k' = s.formula k'
  kept : ∀ k' c, s.cell? k' = some c → ∃ c', t.cell? k' = some c'

theorem Stored.formula {k : String} {tokens : List Token} {s t : Sheet}
    (h : Stored k tokens s t) : t.formula k = tokens := by
  obtain ⟨c, hc, formula⟩ := h.here
  rw [formula_of_cell? hc, formula]

theorem stored_modify {s t : Sheet} {k : String} {slot : Nat} (own : s.SelfLabelled)
    (located : Located s k slot t) (tokens : List Token) :
    Stored k tokens s (t.modify slot (Cell.setFormula tokens)) := by
  have ownThere := located.grows.selfLabelled own
  have cells := cell?_modify ownThere located.slot (Cell.setFormula tokens)
  have stored : ∀ k' c, t.cell? k' = some c →
      ∃ c', (t.modify slot (Cell.setFormula tokens)).cell? k' = some c' := by
    intro k' c hc
    rw [cells k', hc]
    split
    · exact ⟨_, rfl⟩
    · exact ⟨_, rfl⟩
  refine ⟨located.rows, located.columns, ?_, ?_, ?_, ?_, ?_⟩
  · exact ownThere.modify located.slot (Cell.label_setFormula tokens)
  · intro marked k' c hc empty
    rw [cells k'] at hc
    split at hc
    · obtain ⟨c', _, rfl⟩ := Option.map_eq_some_iff.mp hc
      exact Cell.fault_setFormula_of_unfilled empty
    · exact located.grows.blanksMarked marked k' c hc empty
  · refine ⟨((s.cell? k).getD (.blank k)).setFormula tokens, ?_, Cell.formula_setFormula _ _⟩
    rw [cells k, if_pos rfl, located.cell k, if_pos rfl]
    rfl
  · intro k' apart
    have same : (t.modify slot (Cell.setFormula tokens)).cell? k' = t.cell? k' := by
      rw [cells k', if_neg apart]
    rw [Sheet.formula, same, ← Sheet.formula]
    exact (located.grows.cells k').formula
  · intro k' c hc
    exact stored k' c ((located.grows.cells k').cell? hc)

theorem Stored.recalculate {k : String} {tokens : List Token} {s t : Sheet}
    (h : Stored k tokens s t) : Stored k tokens s t.recalculate.sheet := by
  have passed := recalculate_passed h.own
  obtain ⟨c, hc, formula⟩ := h.here
  refine ⟨passed.rows.trans h.rows, passed.columns.trans h.columns, passed.own, ?_, ?_, ?_, ?_⟩
  · intro marked
    exact blanksMarked_recalculate h.own (h.marked marked)
  · obtain ⟨o, ho⟩ := passed.stored k c hc
    exact ⟨_, ho, formula⟩
  · intro k' apart
    rw [formula_recalculate h.own, h.elsewhere k' apart]
  · intro k' c' hc'
    obtain ⟨e, he⟩ := h.kept k' c' hc'
    obtain ⟨o, ho⟩ := passed.stored k' e he
    exact ⟨_, ho⟩

theorem storeFormula_stored {s t : Sheet} {k : String} {slot : Nat} (own : s.SelfLabelled)
    (located : Located s k slot t) (tokens : List Token) :
    (∃ o, (t.storeFormula slot tokens).value = .ok o) ∧
      ∃ u, Stored k tokens s u ∧ (t.storeFormula slot tokens).sheet = u.recalculate.sheet := by
  have stored := stored_modify own located tokens
  obtain ⟨results, told, _⟩ := evaluateAll_passed stored.own (stored_of_mem_evaluationOrder stored.own)
  have value : (t.modify slot (Cell.setFormula tokens)).recalculate.value = .ok results := told
  constructor
  · unfold storeFormula
    dsimp only
    rw [value]
    exact ⟨_, rfl⟩
  · exact ⟨_, stored, rfl⟩

/-- What entering a formula answers is on its cell afterwards. -/
theorem storeFormula_shows {s t : Sheet} {k : String} {slot : Nat} (own : s.SelfLabelled)
    (located : Located s k slot t) (tokens : List Token) :
    ∃ o, (t.storeFormula slot tokens).value = .ok o ∧
      ((t.storeFormula slot tokens).sheet.cell? k).map Cell.outcome = some o := by
  have stored := stored_modify own located tokens
  obtain ⟨results, told, _⟩ := evaluateAll_passed stored.own (stored_of_mem_evaluationOrder stored.own)
  have value : (t.modify slot (Cell.setFormula tokens)).recalculate.value = .ok results := told
  have lookup : (t.storeFormula slot tokens).sheet.keys.lookup k = some slot :=
    evaluateAll_slots _ (t.modify slot (Cell.setFormula tokens)) located.slot
  refine ⟨((t.storeFormula slot tokens).sheet.cellAt slot).outcome, ?_, ?_⟩
  · unfold storeFormula
    dsimp only
    rw [value]
    rfl
  · rw [cell?, lookup]
    rfl

theorem setFormula_of_read {s t : Sheet} {label : String} {slot : Nat} {input : FormulaInput}
    {tokens : List Token} (h : s.locate label = .ok (slot, t))
    (readable : input.read = .ok tokens) :
    s.setFormula label input = t.storeFormula slot tokens := by
  unfold setFormula
  rw [h]
  cases input with
  | tokens ts =>
    cases readable
    rfl
  | text text =>
    have read : tokenize text = .ok tokens := readable
    dsimp only
    rw [read]

/-- Entering a formula that can be read, at a label of the sheet, is not refused. -/
theorem setFormula_entered {s : Sheet} (own : s.SelfLabelled) {label k : String}
    (hk : s.key label = .ok k) (input : FormulaInput) {tokens : List Token}
    (readable : input.read = .ok tokens) :
    (∃ o, (s.setFormula label input).value = .ok o) ∧
      ∃ u, Stored k tokens s u ∧ (s.setFormula label input).sheet = u.recalculate.sheet := by
  obtain ⟨slot, t, found, located⟩ := exists_locate hk
  rw [setFormula_of_read found readable]
  exact storeFormula_stored own located tokens

theorem setFormula_stored {s : Sheet} (own : s.SelfLabelled) {label k text : String}
    (hk : s.key label = .ok k) {tokens : List Token} (readable : tokenize text = .ok tokens) :
    (∃ o, (s.setFormula label (.text text)).value = .ok o) ∧
      ∃ u, Stored k tokens s u ∧ (s.setFormula label (.text text)).sheet = u.recalculate.sheet :=
  setFormula_entered own hk (.text text) readable

end Sheet

end FormulaSheet
