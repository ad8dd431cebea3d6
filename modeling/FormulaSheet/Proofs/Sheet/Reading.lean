import FormulaSheet.Proofs.Formula.Lookups
import FormulaSheet.Proofs.Sheet.Blanks
import FormulaSheet.Proofs.Sheet.Consistency
/-!
What a formula can see of a sheet. A reference shows the cell that a lookup of its label leads to,
and evaluation looks up no label but those that the formula names. So sheets on which these labels
lead to cells alike give the formula the same outcome, whatever else they hold.
-/

namespace FormulaSheet.Sheet

/-- Both sheets refuse the label, or it leads to cells with the same value and the same fault, that
both have a formula or both have none. -/
inductive ResolvesAlike (s t : Sheet) (label : String) : Prop
  | refused {e e' : ReferenceError} (here : s.locate label = .error e)
      (there : t.locate label = .error e')
  | found {i j : Nat} {s' t' : Sheet} (here : s.locate label = .ok (i, s'))
      (there : t.locate label = .ok (j, t')) (value : (s'.cellAt i).value = (t'.cellAt j).value)
      (fault : (s'.cellAt i).fault = (t'.cellAt j).fault)
      (filled : (s'.cellAt i).isFilled = (t'.cellAt j).isFilled)

variable {s t : Sheet} {label : String}

theorem read_of_locate_error {e : ReferenceError} (h : s.locate label = .error e)
    (isLabel : Token → Bool) : (s.environment isLabel).read label = none := by
  simp only [environment, locate_eq_error_iff.mp h]

/-- What a reference shows is the cell that a lookup leads to. -/
theorem read_of_locate {slot : Nat} (h : s.locate label = .ok (slot, t))
    (isLabel : Token → Bool) :
    (s.environment isLabel).read label = some (t.cellAt slot).reading := by
  have located := located_of_locate h
  have inside := isKey_of_lookup located.slot
  rw [located.rows, located.columns] at inside
  have hk : s.key label = .ok (Text.upper label) := key_eq_ok_iff.mpr ⟨rfl, inside⟩
  rw [located.cellAt]
  simp only [environment, hk]

theorem ResolvesAlike.read (h : ResolvesAlike s t label) (isLabel : Token → Bool) :
    (s.environment isLabel).read label = (t.environment isLabel).read label := by
  cases h with
  | refused here there => rw [read_of_locate_error here, read_of_locate_error there]
  | found here there value fault filled =>
    rw [read_of_locate here, read_of_locate there, Cell.reading, Cell.reading, value, fault, filled]

theorem resolvesAlike_of_cell? (rows : t.rows = s.rows) (columns : t.columns = s.columns)
    (cell : t.cell? (Text.upper label) = s.cell? (Text.upper label)) :
    ResolvesAlike s t label := by
  cases hk : s.key label with
  | error e =>
    exact .refused (locate_eq_error_iff.mpr hk)
      (locate_eq_error_iff.mpr ((key_congr rows columns label).trans hk))
  | ok k =>
    obtain ⟨_, _, here, located⟩ := exists_locate hk
    obtain ⟨_, _, there, locatedThere⟩ := exists_locate ((key_congr rows columns label).trans hk)
    rw [← (key_eq_ok_iff.mp hk).1] at cell
    have same := locatedThere.cellAt
    rw [cell, ← located.cellAt] at same
    exact .found here there (congrArg Cell.value same).symm (congrArg Cell.fault same).symm
      (congrArg Cell.isFilled same).symm

/-- The dependencies of a cell cover all that its evaluation reads: no other label is looked up, and
on any two sheets where they lead to cells alike the outcome is the same. So changing a cell to
which none of them leads changes nothing. -/
theorem dependencies_cover (s : Sheet) (c : Cell) :
    (∀ label ∈ (FormulaSheet.evaluate (s.environment Label.isLabel) c.formula).labels,
      label ∈ c.dependencies) ∧
    (∀ t : Sheet, (∀ d ∈ c.dependencies, ResolvesAlike s t d) →
      (t.evaluate Label.isLabel c.formula).1 = (s.evaluate Label.isLabel c.formula).1) ∧
    ∀ slot f, (∀ d ∈ c.dependencies, s.keys.lookup d ≠ some slot) →
      ((s.modify slot f).evaluate Label.isLabel c.formula).1 =
        (s.evaluate Label.isLabel c.formula).1 := by
  have apart : ∀ t : Sheet, (∀ d ∈ c.dependencies, ResolvesAlike s t d) →
      (t.evaluate Label.isLabel c.formula).1 = (s.evaluate Label.isLabel c.formula).1 := by
    intro t alike
    have agree : Environment.AgreeOn c.formula (t.environment Label.isLabel)
        (s.environment Label.isLabel) := by
      intro d hd
      refine ⟨rfl, ?_⟩
      intro (label : Label.isLabel d = true)
      have read := (alike d (mem_dependencies_iff.mpr ⟨hd, label⟩)).read Label.isLabel
      rw [Environment.resolve, Environment.resolve, read]
    exact congrArg Evaluation.outcome (evaluate_congr agree)
  refine ⟨?_, apart, ?_⟩
  · intro label looked
    have lookedUp := mem_labels_evaluate.mp looked
    exact mem_dependencies_iff.mpr ⟨lookedUp.mem, lookedUp.isLabel⟩
  · intro slot f unreached
    refine apart _ fun d hd => resolvesAlike_of_cell? rfl rfl ?_
    rw [Label.upper_of_isLabel (mem_dependencies_iff.mp hd).2]
    exact cell?_modify_of_ne (unreached d hd) f

/-- A formula with a reference that both sheets refuse, where they differ in size and in the cell of
A1. -/
theorem dependencies_cover_on_samples :
    let c : Cell := { label := "A1", formula := ["B1", "*", "2", "+", "C9"] }
    (∀ d ∈ c.dependencies, ResolvesAlike chain besideBlank d) ∧
      (besideBlank.evaluate Label.isLabel c.formula).1 =
        (chain.evaluate Label.isLabel c.formula).1 ∧
      (∀ d ∈ c.dependencies, chain.keys.lookup d ≠ some 0) ∧
      ((chain.modify 0 (Cell.setFormula ["7"])).evaluate Label.isLabel c.formula).1 =
        (chain.evaluate Label.isLabel c.formula).1 := by
  intro c
  have named : c.dependencies = ["B1", "C9"] := by decide +kernel
  have alike : ∀ d ∈ c.dependencies, ResolvesAlike chain besideBlank d := by
    intro d hd
    rw [named] at hd
    rcases List.mem_cons.mp hd with rfl | hd
    · have here : chain.key "B1" = .ok "B1" := key_of_isKey (by decide +kernel)
      have there : besideBlank.key "B1" = .ok "B1" := key_of_isKey (by decide +kernel)
      exact .found (locate_of_lookup here rfl) (locate_of_lookup there rfl) rfl rfl rfl
    · obtain rfl := List.mem_singleton.mp hd
      have here : chain.key "C9" = .error (.outside "C9" 1 2) := by decide +kernel
      have there : besideBlank.key "C9" = .error (.outside "C9" 2 2) := by decide +kernel
      exact .refused (locate_eq_error_iff.mpr here) (locate_eq_error_iff.mpr there)
  have unreached : ∀ d ∈ c.dependencies, chain.keys.lookup d ≠ some 0 := by
    rw [named]
    decide
  obtain ⟨_, same, untouched⟩ := dependencies_cover chain c
  exact ⟨alike, same besideBlank alike, unreached, untouched 0 _ unreached⟩

end FormulaSheet.Sheet
