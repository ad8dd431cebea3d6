import FormulaSheet.Proofs.Sheet.Entry
/-!
Passes over any sheet, also one in which a cell stands under several keys. Evaluating a cell changes
what exactly those keys show that lead to it. So a pass in which each formula stands behind those it
refers to leaves on every cell that it evaluates the outcome of its formula in the final sheet.
-/

namespace FormulaSheet.Sheet

/-- What evaluating the formula under a key leaves: the outcome, under each key of that cell. -/
structure Wrote (s : Sheet) (k : String) (o : Outcome) (t : Sheet) : Prop where
  rows : t.rows = s.rows
  columns : t.columns = s.columns
  slots : ∀ k' i, s.keys.lookup k' = some i → t.keys.lookup k' = some i
  here : ∀ k', s.keys.lookup k' = s.keys.lookup k →
    t.cell? k' = (s.cell? k').map (·.setOutcome o)
  elsewhere : ∀ k', s.keys.lookup k' ≠ s.keys.lookup k → BlankOrSame s t k'

theorem cell?_modify_of_lookup {s : Sheet} {k : String} {slot : Nat}
    (h : s.keys.lookup k = some slot) (f : Cell → Cell) :
    (s.modify slot f).cell? k = (s.cell? k).map f := by
  have hs : slot < s.pool.size := s.stored (k, slot) (mem_keys_of_lookup h)
  have keys : (s.modify slot f).keys = s.keys := rfl
  rw [cell?, cell?, keys, h, Option.map_some, Option.map_some, cellAt_modify s hs, if_pos rfl]
  rfl

theorem cell?_modify_of_ne {s : Sheet} {k : String} {slot : Nat}
    (h : s.keys.lookup k ≠ some slot) (f : Cell → Cell) :
    (s.modify slot f).cell? k = s.cell? k := by
  have keys : (s.modify slot f).keys = s.keys := rfl
  rw [cell?, cell?, keys]
  cases hk : s.keys.lookup k with
  | none => rfl
  | some i =>
    have apart : i ≠ slot := fun same => h (same ▸ hk)
    rw [Option.map_some, Option.map_some, cellAt_modify_of_ne s apart]

/-- Looking labels up brings no new key to a cell that has a formula. -/
theorem Grows.lookup_of_filled {s t : Sheet} (h : Grows s t) {k k' : String} {slot : Nat}
    (hk : s.keys.lookup k = some slot) (filled : (s.cellAt slot).formula ≠ [])
    (hk' : t.keys.lookup k' = some slot) : s.keys.lookup k' = some slot := by
  have cell : t.cellAt slot = s.cellAt slot := by
    have kept := (h.cells k).cell? (cell?_eq_some_iff.mpr ⟨slot, hk, rfl⟩)
    obtain ⟨i, hi, same⟩ := cell?_eq_some_iff.mp kept
    rw [h.slots k slot hk] at hi
    cases hi
    exact same
  have found : t.cell? k' = some (s.cellAt slot) := cell?_eq_some_iff.mpr ⟨slot, hk', cell⟩
  rcases h.cells k' with same | ⟨_, blank⟩
  · rw [found] at same
    obtain ⟨i, hi, _⟩ := cell?_eq_some_iff.mp same.symm
    rw [h.slots k' i hi] at hk'
    rw [hi, hk']
  · rw [found] at blank
    rw [Option.some.inj blank] at filled
    exact absurd rfl filled

theorem evaluateSlot_wrote {s : Sheet} {k : String} {slot : Nat}
    (h : s.keys.lookup k = some slot) (filled : (s.cellAt slot).formula ≠ []) :
    Wrote s k (FormulaSheet.evaluate (s.environment Label.isLabel) (s.cellAt slot).formula).outcome
      (s.evaluateSlot slot).sheet := by
  have grown := grows_touch s
    (FormulaSheet.evaluate (s.environment Label.isLabel) (s.cellAt slot).formula).labels
  refine ⟨grown.rows, grown.columns, grown.slots, ?_, ?_⟩
  · intro k' same
    have there := same.trans h
    have cell : s.cell? k' = some (s.cellAt slot) := cell?_eq_some_iff.mpr ⟨slot, there, rfl⟩
    refine (cell?_modify_of_lookup (grown.slots k' slot there) _).trans ?_
    rw [(grown.cells k').cell? cell, cell]
  · intro k' apart
    have other := mt (grown.lookup_of_filled h filled) (h ▸ apart)
    have same := cell?_modify_of_ne other fun c => c.setOutcome (s.evaluateSlot slot).value
    rcases grown.cells k' with before | ⟨none, blank⟩
    · exact .inl (same.trans before)
    · exact .inr ⟨none, same.trans blank⟩

theorem Wrote.formula {s t : Sheet} {k : String} {o : Outcome} (h : Wrote s k o t) :
    t.formula = s.formula := by
  funext k'
  by_cases same : s.keys.lookup k' = s.keys.lookup k
  · rw [Sheet.formula, Sheet.formula, h.here k' same, Option.map_map]
    rfl
  · exact (h.elsewhere k' same).formula

/-- The cell shows what its formula gives in the sheet. -/
def Consistent (s : Sheet) (k : String) : Prop :=
  ∀ c, s.cell? k = some c →
    c.outcome = (FormulaSheet.evaluate (s.environment Label.isLabel) c.formula).outcome

/-- The formulas that the formula of the key refers to are consistent. -/
def SettledBelow (s : Sheet) (k : String) : Prop :=
  ∀ d ∈ s.formula k, Label.isLabel d = true → s.formula d ≠ [] → s.Consistent d

section Step

variable {s t : Sheet} {k : String} {c : Cell}

/-- Where a formula finds the cell that is written, that cell was consistent, so nothing changes. -/
theorem Wrote.agreeOn
    (wrote : Wrote s k
      (FormulaSheet.evaluate (s.environment Label.isLabel) c.formula).outcome t)
    (hc : s.cell? k = some c) (filled : c.formula ≠ []) {k' : String} (below : s.SettledBelow k') :
    Environment.AgreeOn (s.formula k') (t.environment Label.isLabel)
      (s.environment Label.isLabel) := by
  apply environment_agreeOn wrote.rows wrote.columns
  intro d hd label
  by_cases same : s.keys.lookup d = s.keys.lookup k
  · have found : s.cell? d = some c := by
      rw [cell?, same]
      exact hc
    have formula : s.formula d ≠ [] := by
      rw [formula_of_cell? found]
      exact filled
    have outcome := below d hd label formula c found
    left
    rw [wrote.here d same, found, ← outcome]
    rfl
  · exact wrote.elsewhere d same

theorem Wrote.consistent
    (wrote : Wrote s k
      (FormulaSheet.evaluate (s.environment Label.isLabel) c.formula).outcome t)
    (hc : s.cell? k = some c) (filled : c.formula ≠ []) {k' : String}
    (before : s.keys.lookup k' = s.keys.lookup k ∨ s.Consistent k') (below : s.SettledBelow k')
    (formula : s.formula k' ≠ []) : t.Consistent k' := by
  have agree := wrote.agreeOn hc filled below
  obtain ⟨e, he, _⟩ := exists_cell?_of_formula formula
  rw [formula_of_cell? he] at agree
  intro e' he'
  by_cases same : s.keys.lookup k' = s.keys.lookup k
  · have cell : e = c := by
      rw [cell?, same] at he
      exact Option.some.inj (he.symm.trans hc)
    subst cell
    rw [wrote.here k' same, he] at he'
    cases he'
    exact congrArg Evaluation.outcome (evaluate_congr agree).symm
  · rw [(wrote.elsewhere k' same).cell? he] at he'
    cases he'
    rw [before.resolve_left same e he]
    exact congrArg Evaluation.outcome (evaluate_congr agree).symm

end Step

/-! A pass. -/

/-- Formulas stand behind those they refer to. -/
def Ordered (s : Sheet) (labels : List String) : Prop :=
  ∀ front l behind, labels = front ++ l :: behind → ∀ d ∈ s.formula (Text.upper l),
    Label.isLabel d = true → s.formula d ≠ [] → d ∈ front

theorem Ordered.congr {s t : Sheet} {labels : List String} (h : s.Ordered labels)
    (same : t.formula = s.formula) : t.Ordered labels := by
  unfold Ordered
  rw [same]
  exact h

theorem Ordered.mem_done {s : Sheet} {done rest : List String} (h : s.Ordered (done ++ rest))
    {l d : String} (hl : l ∈ done) (hd : d ∈ s.formula (Text.upper l))
    (label : Label.isLabel d = true) (filled : s.formula d ≠ []) : d ∈ done := by
  obtain ⟨front, behind, rfl⟩ := List.append_of_mem hl
  have mem := h front l (behind ++ rest) (by rw [List.append_assoc, List.cons_append]) d hd label
    filled
  exact List.mem_append_left _ mem

theorem locate_of_formula {s : Sheet} {l : String} (h : s.formula (Text.upper l) ≠ []) :
    ∃ slot, s.keys.lookup (Text.upper l) = some slot ∧ s.locate l = .ok (slot, s) ∧
      s.formula (Text.upper l) = (s.cellAt slot).formula := by
  obtain ⟨c, hc, _⟩ := exists_cell?_of_formula h
  obtain ⟨slot, hs, rfl⟩ := cell?_eq_some_iff.mp hc
  exact ⟨slot, hs, locate_of_lookup (key_eq_ok_iff.mpr ⟨rfl, isKey_of_lookup hs⟩) hs,
    formula_of_cell? hc⟩

/-- A pass over formulas begins with the evaluation of the first. -/
theorem evaluateAll_of_formula {s : Sheet} {l : String} (h : s.formula (Text.upper l) ≠ [])
    (rest : List String) :
    ∃ c t o, s.cell? (Text.upper l) = some c ∧ c.formula ≠ [] ∧
      o = (FormulaSheet.evaluate (s.environment Label.isLabel) c.formula).outcome ∧
      Wrote s (Text.upper l) o t ∧
      (s.evaluateAll (l :: rest)).value = (t.evaluateAll rest).value.map ((l, o) :: ·) ∧
      (s.evaluateAll (l :: rest)).sheet = (t.evaluateAll rest).sheet := by
  obtain ⟨slot, hs, found, formula⟩ := locate_of_formula h
  rw [formula] at h
  refine ⟨s.cellAt slot, (s.evaluateSlot slot).sheet, _, cell?_eq_some_iff.mpr ⟨slot, hs, rfl⟩, h,
    rfl, evaluateSlot_wrote hs h, ?_⟩
  rw [evaluateAll, evaluateCell, found]
  exact ⟨rfl, rfl⟩

/-- A pass over formulas is refused nowhere. -/
theorem evaluateAll_answers {s : Sheet} {labels : List String}
    (filled : ∀ l ∈ labels, s.formula (Text.upper l) ≠ []) :
    ∃ results, (s.evaluateAll labels).value = .ok results := by
  induction labels generalizing s with
  | nil => exact ⟨[], rfl⟩
  | cons l rest ih =>
    obtain ⟨_, t, o, _, _, _, wrote, value, _⟩ :=
      evaluateAll_of_formula (filled l List.mem_cons_self) rest
    have filledThere : ∀ l' ∈ rest, t.formula (Text.upper l') ≠ [] := by
      intro l' hl'
      rw [wrote.formula]
      exact filled l' (List.mem_cons_of_mem l hl')
    obtain ⟨results, others⟩ := ih filledThere
    rw [value, others]
    exact ⟨_, rfl⟩

theorem evaluateAll_consistent {s : Sheet} {done rest : List String}
    (ordered : s.Ordered (done ++ rest))
    (filled : ∀ l ∈ done ++ rest, s.formula (Text.upper l) ≠ [])
    (settled : ∀ l ∈ done, s.Consistent (Text.upper l)) :
    ∀ l ∈ done ++ rest, (s.evaluateAll rest).sheet.Consistent (Text.upper l) := by
  -- on the labels to come: those done are consistent, and the next step keeps them so
  induction rest generalizing s done with
  | nil =>
    rw [List.append_nil]
    exact settled
  | cons l rest ih =>
    have assoc : done ++ l :: rest = (done ++ [l]) ++ rest := by
      rw [List.append_assoc, List.singleton_append]
    have mem : l ∈ done ++ l :: rest := List.mem_append_right _ List.mem_cons_self
    obtain ⟨c, t, _, hc, nonempty, rfl, wrote, _, sheet⟩ :=
      evaluateAll_of_formula (filled l mem) rest
    have consistent : ∀ d, d ∈ done → Label.isLabel d = true → s.Consistent d := by
      intro d hd label
      have here := settled d hd
      rw [Label.upper_of_isLabel label] at here
      exact here
    have settledThere : ∀ l' ∈ done ++ [l], t.Consistent (Text.upper l') := by
      intro l' hl'
      rcases List.mem_append.mp hl' with before | now
      · have below : s.SettledBelow (Text.upper l') := fun d hd label formula =>
          consistent d (ordered.mem_done before hd label formula) label
        exact wrote.consistent hc nonempty (.inr (settled l' before)) below
          (filled l' (List.mem_append_left _ before))
      · rw [List.mem_singleton.mp now]
        have below : s.SettledBelow (Text.upper l) := fun d hd label formula =>
          consistent d (ordered done l rest rfl d hd label formula) label
        exact wrote.consistent hc nonempty (.inl rfl) below (filled l mem)
    rw [assoc] at ordered filled ⊢
    rw [sheet]
    apply ih (ordered.congr wrote.formula) _ settledThere
    rw [wrote.formula]
    exact filled

/-- A pass leaves a cell as it is that stands under none of its labels. -/
theorem evaluateAll_aside {s : Sheet} {labels : List String} {k : String} {c : Cell}
    (hc : s.cell? k = some c) (filled : ∀ l ∈ labels, s.formula (Text.upper l) ≠ [])
    (apart : ∀ l ∈ labels, s.keys.lookup k ≠ s.keys.lookup (Text.upper l)) :
    (s.evaluateAll labels).sheet.rows = s.rows ∧
      (s.evaluateAll labels).sheet.columns = s.columns ∧
      (s.evaluateAll labels).sheet.cell? k = some c := by
  induction labels generalizing s with
  | nil => exact ⟨rfl, rfl, hc⟩
  | cons l rest ih =>
    obtain ⟨_, t, _, _, _, _, wrote, _, sheet⟩ :=
      evaluateAll_of_formula (filled l List.mem_cons_self) rest
    have cell : t.cell? k = some c :=
      (wrote.elsewhere k (apart l List.mem_cons_self)).cell? hc
    have filledThere : ∀ l' ∈ rest, t.formula (Text.upper l') ≠ [] := by
      intro l' hl'
      rw [wrote.formula]
      exact filled l' (List.mem_cons_of_mem l hl')
    have apartThere : ∀ l' ∈ rest, t.keys.lookup k ≠ t.keys.lookup (Text.upper l') := by
      intro l' hl'
      obtain ⟨i, hi, _⟩ := cell?_eq_some_iff.mp hc
      obtain ⟨j, hj, _⟩ := locate_of_formula (filled l' (List.mem_cons_of_mem l hl'))
      have differs := apart l' (List.mem_cons_of_mem l hl')
      rw [hi, hj] at differs
      rw [wrote.slots k i hi, wrote.slots _ j hj]
      exact differs
    obtain ⟨rows, columns, kept⟩ := ih cell filledThere apartThere
    rw [sheet]
    exact ⟨rows.trans wrote.rows, columns.trans wrote.columns, kept⟩

/-! The order of evaluation. -/

theorem mem_front_of_idxOf_lt {front behind : List String} {l d : String}
    (h : (front ++ l :: behind).idxOf d < (front ++ l :: behind).idxOf l) : d ∈ front := by
  by_contra absent
  have bound : (front ++ l :: behind).idxOf l ≤ front.length := by
    by_cases mem : l ∈ front
    · rw [List.idxOf_append_of_mem mem]
      exact Nat.le_of_lt (List.idxOf_lt_length_of_mem mem)
    · rw [List.idxOf_append_of_notMem mem, List.idxOf_cons_self]
      exact Nat.le_refl _
  rw [List.idxOf_append_of_notMem absent] at h
  omega

theorem hasFormula_iff {s : Sheet} {l : String} :
    s.hasFormula l = true ↔ s.formula (Text.upper l) ≠ [] := by
  rw [hasFormula, find?, formula]
  cases s.cell? (Text.upper l) with
  | none => simp
  | some c => exact isFilled_iff

theorem ordered_evaluationOrder {s : Sheet}
    (acyclic : ∀ y, ¬ Relation.TransGen s.DependsOn y y) : s.Ordered s.evaluationOrder := by
  intro front l behind order d hd label filled
  have mem : l ∈ s.evaluationOrder := by
    rw [order]
    exact List.mem_append_right _ List.mem_cons_self
  obtain ⟨left, formula⟩ := List.mem_filter.mp mem
  have known : s.hasFormula d = true := by
    rw [hasFormula_iff, Label.upper_of_isLabel label]
    exact filled
  have refers : d ∈ s.references l := by
    obtain ⟨c, hc, hd⟩ := dependsOn_iff.mpr ⟨hd, label⟩
    rw [references, find?, hc]
    exact hd
  rcases s.search_coherent.behind l left d refers with before | back
  · apply @mem_front_of_idxOf_lt front behind l d
    rw [← order]
    exact idxOf_filter_lt known formula before
  · have round := dependsOn_of_reaches label back
    obtain ⟨_, _, last⟩ := Relation.TransGen.tail'_iff.mp round
    have first := dependsOn_of_mem_references (isLabel_of_dependsOn last) refers
    exact absurd (.head first round) (acyclic l)

theorem formula_of_mem_evaluationOrder {s : Sheet} {l : String} (h : l ∈ s.evaluationOrder) :
    s.formula (Text.upper l) ≠ [] :=
  hasFormula_iff.mp (List.mem_filter.mp h).2

theorem recalculate_answers (s : Sheet) : ∃ results, s.recalculate.value = .ok results :=
  evaluateAll_answers fun _ hl => formula_of_mem_evaluationOrder hl

/-- Without circles, recalculating leaves on the cells that it evaluates what their formulas give in
the final sheet. -/
theorem recalculate_consistent {s : Sheet}
    (acyclic : ∀ y, ¬ Relation.TransGen s.DependsOn y y) {l : String}
    (hl : l ∈ s.evaluationOrder) : s.recalculate.sheet.Consistent (Text.upper l) := by
  have filled : ∀ l ∈ [] ++ s.evaluationOrder, s.formula (Text.upper l) ≠ [] :=
    fun _ hl => formula_of_mem_evaluationOrder hl
  have none : ∀ l ∈ ([] : List String), s.Consistent (Text.upper l) := by
    intro l hl
    cases hl
  exact evaluateAll_consistent (ordered_evaluationOrder acyclic) filled none l hl

end FormulaSheet.Sheet
