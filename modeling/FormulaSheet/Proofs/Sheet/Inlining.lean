import FormulaSheet.Proofs.Formula.Inlining
import FormulaSheet.Proofs.Sheet.Consistency
import FormulaSheet.Proofs.Sheet.Failure
/-!
A reference means its formula. After a recalculation without circles a label in a formula can be
replaced by the formula of its cell, in parentheses, if that cell shows no fault.
-/

namespace FormulaSheet.Sheet

theorem resolve_of_cell? {s : Sheet} {k : String} {c : Cell} (hc : s.cell? k = some c)
    (filled : c.formula ≠ []) (sound : c.fault = none) :
    (s.environment Label.isLabel).resolve k = .ok c.value := by
  apply Environment.resolve_eq_ok_iff.mpr
  have read := read_environment_of_cell? hc
  refine ⟨⟨c.reading, read, isFilled_iff.mpr filled, .inl sound⟩, ?_⟩
  rw [Environment.valueOf, read]
  rfl

theorem Consistent.inlined {s : Sheet} {k : String} {c : Cell} (consistent : s.Consistent k)
    (hc : s.cell? k = some c) (sound : c.fault = none) (ts : List Token) :
    (s.evaluate Label.isLabel (inlined k c.formula ts)).1.fault =
        (s.evaluate Label.isLabel ts).1.fault ∧
      ((s.evaluate Label.isLabel ts).1.fault = none →
        (s.evaluate Label.isLabel (inlined k c.formula ts)).1.result =
          (s.evaluate Label.isLabel ts).1.result) := by
  have shown : (FormulaSheet.evaluate (s.environment Label.isLabel) c.formula).outcome =
      ⟨c.value, none⟩ := by
    rw [← consistent c hc, Cell.outcome, sound]
  have filled : c.formula ≠ [] := by
    intro empty
    rw [empty] at shown
    cases congrArg Outcome.fault shown
  have label : Label.isLabel k = true := Label.isLabel_of_isKey (isKey_of_cell? hc)
  have resolved := resolve_of_cell? hc filled sound
  exact evaluate_inlined isLabel_plain label resolved shown ts

/-- After recalculating a sheet without circles a formula may have, in place of a label, the formula
of the cell in parentheses: the fault stays the same, and without fault the result too. This is so
for the labels that are evaluated and show no fault. Where cells stand under their own labels, all
labels with a formula are evaluated. -/
theorem reference_means_formula {s : Sheet}
    (acyclic : ∀ y, ¬ Relation.TransGen s.DependsOn y y) :
    (∀ l ∈ s.evaluationOrder, ∀ c, s.recalculate.sheet.cell? l = some c → c.fault = none →
      ∀ ts : List Token,
        (s.recalculate.sheet.evaluate Label.isLabel (inlined l c.formula ts)).1.fault =
            (s.recalculate.sheet.evaluate Label.isLabel ts).1.fault ∧
          ((s.recalculate.sheet.evaluate Label.isLabel ts).1.fault = none →
            (s.recalculate.sheet.evaluate Label.isLabel (inlined l c.formula ts)).1.result =
              (s.recalculate.sheet.evaluate Label.isLabel ts).1.result)) ∧
    (s.SelfLabelled → ∀ l c, s.recalculate.sheet.cell? l = some c → c.isFilled = true →
      l ∈ s.evaluationOrder) := by
  constructor
  · intro l hl c hc sound
    have consistent := recalculate_consistent acyclic hl
    rw [Label.upper_of_isLabel (Label.isLabel_of_isKey (isKey_of_cell? hc))] at consistent
    exact consistent.inlined hc sound
  · intro own l c hc filled
    apply mem_evaluationOrder_of_formula own
    rw [← formula_recalculate own, formula_of_cell? hc]
    exact isFilled_iff.mp filled

theorem chain_settled (k : String) (c : Cell) (hc : chain.cell? k = some c)
    (filled : c.isFilled = true) : chain.recalculate.sheet.cell? k =
      some (c.setOutcome (chain.recalculate.sheet.evaluate Label.isLabel c.formula).1) :=
  recalculate_settled chain_selfLabelled hc filled fun y _ => chain_acyclic y

theorem chain_recalculated : chain.recalculate.sheet.cell? "A1" =
    some ((chain.cellAt 0).setOutcome ⟨1.0 * 2.0, none⟩) := by
  have last : (chain.recalculate.sheet.evaluate Label.isLabel ["1"]).1 = ⟨1.0, none⟩ :=
    outcome_of_value (by decide +kernel)
  have cell := chain_settled "B1" (chain.cellAt 1) rfl rfl
  have lastFormula : (chain.cellAt 1).formula = ["1"] := rfl
  rw [lastFormula, last] at cell
  have resolved := resolve_of_cell? cell (List.cons_ne_nil _ _) rfl
  have first : (chain.recalculate.sheet.evaluate Label.isLabel ["B1", "*", "2"]).1 =
      ⟨1.0 * 2.0, none⟩ := by
    apply outcome_of_value
    rw [Reader.read_cons, Reader.step, if_neg (by decide), Reader.operandValue,
      if_pos (by decide +kernel), resolved]
    decide +kernel
  have outer := chain_settled "A1" (chain.cellAt 0) rfl rfl
  have firstFormula : (chain.cellAt 0).formula = ["B1", "*", "2"] := rfl
  rw [firstFormula, first] at outer
  exact outer

/-- The formula of A1 is a product, with a reference of its own. -/
theorem reference_means_formula_on_chain :
    (∀ y, ¬ Relation.TransGen chain.DependsOn y y) ∧ chain.SelfLabelled ∧
      ∃ c, chain.recalculate.sheet.cell? "A1" = some c ∧ c.isFilled = true ∧ c.fault = none ∧
        "A1" ∈ chain.evaluationOrder ∧ ∀ ts : List Token,
          (chain.recalculate.sheet.evaluate Label.isLabel (inlined "A1" c.formula ts)).1.fault =
              (chain.recalculate.sheet.evaluate Label.isLabel ts).1.fault ∧
            ((chain.recalculate.sheet.evaluate Label.isLabel ts).1.fault = none →
              (chain.recalculate.sheet.evaluate Label.isLabel
                  (inlined "A1" c.formula ts)).1.result =
                (chain.recalculate.sheet.evaluate Label.isLabel ts).1.result) := by
  have meaning := reference_means_formula chain_acyclic
  have mem := meaning.2 chain_selfLabelled "A1" _ chain_recalculated rfl
  exact ⟨chain_acyclic, chain_selfLabelled, _, chain_recalculated, rfl, rfl, mem,
    meaning.1 "A1" mem _ chain_recalculated rfl⟩

/-- The cell of A1 was put under A2 too, and another one has taken that place since. Its label is
still A2, so recalculating evaluates the other one only. -/
def displaced : Sheet where
  rows := 2
  columns := 1
  keys := [("A1", 0), ("A2", 1)]
  pool := #[{ label := "A2", formula := ["1"], fault := none },
    { label := "A2", formula := ["2"], fault := none }]
  rows_pos := Nat.two_pos
  columns_pos := Nat.one_pos
  stored := by decide
  inside := by decide
  distinct := by decide

theorem displaced_keys {k : String} {c : Cell} (h : displaced.cell? k = some c) :
    (k = "A1" ∧ c = displaced.cellAt 0) ∨ (k = "A2" ∧ c = displaced.cellAt 1) := by
  obtain ⟨slot, hs, rfl⟩ := cell?_eq_some_iff.mp h
  have mem := mem_keys_of_lookup hs
  simp only [displaced, List.mem_cons, Prod.mk.injEq, List.not_mem_nil, or_false] at mem
  rcases mem with ⟨rfl, rfl⟩ | ⟨rfl, rfl⟩
  · exact .inl ⟨rfl, rfl⟩
  · exact .inr ⟨rfl, rfl⟩

theorem displaced_acyclic (y : String) : ¬ Relation.TransGen displaced.DependsOn y y := by
  intro h
  obtain ⟨_, ⟨c, hc, hd⟩, _⟩ := Relation.TransGen.head'_iff.mp h
  have none : c.dependencies = [] := by
    rcases displaced_keys hc with ⟨_, rfl⟩ | ⟨_, rfl⟩
    · decide
    · decide
  rw [none] at hd
  cases hd

theorem displaced_evaluated : ∀ l ∈ displaced.evaluationOrder, l = "A2" := by
  intro l hl
  have entered := (mem_entered_iff displaced l).mpr (List.mem_filter.mp hl).1
  rcases List.mem_append.mp (displaced.search_coherent.nodes l entered) with root | named
  · obtain ⟨c, hc, rfl⟩ := List.mem_map.mp root
    obtain ⟨k, hk⟩ := mem_cells_iff.mp (List.mem_filter.mp hc).1
    rcases displaced_keys hk with ⟨_, rfl⟩ | ⟨_, rfl⟩
    · rfl
    · rfl
  · have none : displaced.mentioned = [] := by decide
    rw [none] at named
    cases named

/-- A1 has a formula and shows no fault, but not what its formula gives. -/
theorem displaced_reference :
    (∀ y, ¬ Relation.TransGen displaced.DependsOn y y) ∧
      ∃ c, displaced.recalculate.sheet.cell? "A1" = some c ∧ c.isFilled = true ∧ c.fault = none ∧
        (displaced.recalculate.sheet.evaluate Label.isLabel ["A1"]).1.fault = none ∧
        (displaced.recalculate.sheet.evaluate Label.isLabel ["A1"]).1.result = 0.0 ∧
        (displaced.recalculate.sheet.evaluate Label.isLabel
          (inlined "A1" c.formula ["A1"])).1.result = 1.0 ∧
        (displaced.recalculate.sheet.evaluate Label.isLabel
            (inlined "A1" c.formula ["A1"])).1.result ≠
          (displaced.recalculate.sheet.evaluate Label.isLabel ["A1"]).1.result := by
  have filled : ∀ l ∈ displaced.evaluationOrder, displaced.formula (Text.upper l) ≠ [] :=
    fun _ hl => formula_of_mem_evaluationOrder hl
  have apart : ∀ l ∈ displaced.evaluationOrder,
      displaced.keys.lookup "A1" ≠ displaced.keys.lookup (Text.upper l) := by
    intro l hl
    rw [displaced_evaluated l hl]
    decide +kernel
  have cell : displaced.cell? "A1" = some (displaced.cellAt 0) := rfl
  obtain ⟨rows, columns, kept⟩ := evaluateAll_aside cell filled apart
  have alike : ∀ ts : List Token, (∀ d ∈ ts, Label.isLabel d = true → d = "A1") →
      (displaced.recalculate.sheet.evaluate Label.isLabel ts).1 =
        (displaced.evaluate Label.isLabel ts).1 := by
    intro ts only
    have agree := environment_agreeOn rows columns fun d hd label => by
      rw [only d hd label]
      exact Or.inl (kept.trans cell.symm)
    exact congrArg Evaluation.outcome (evaluate_congr agree)
  have parenthesised : inlined "A1" (displaced.cellAt 0).formula ["A1"] = ["(", "1", ")"] := by
    decide
  have reference : (displaced.recalculate.sheet.evaluate Label.isLabel ["A1"]).1 = ⟨0.0, none⟩ := by
    rw [alike _ (by decide)]
    exact outcome_of_value (by decide +kernel)
  have formula : (displaced.recalculate.sheet.evaluate Label.isLabel ["(", "1", ")"]).1 =
      ⟨1.0, none⟩ := by
    rw [alike _ (by decide)]
    exact outcome_of_value (by decide +kernel)
  refine ⟨displaced_acyclic, displaced.cellAt 0, kept, rfl, rfl, ?_⟩
  rw [parenthesised, reference, formula]
  exact ⟨rfl, rfl, rfl, by decide +kernel⟩

end FormulaSheet.Sheet
