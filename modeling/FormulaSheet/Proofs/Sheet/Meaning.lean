import FormulaSheet.Proofs.Sheet.Pass
/-!
What the formulas of a sheet mean, whatever values and faults the cells carry. The outcome of a
formula is defined from the outcomes of the formulas it refers to; labels without a formula stand
for no cell. Where no circle can be reached the definition gives one outcome, and recalculating
leaves it on the cell.
-/

namespace FormulaSheet

/-- The cells that formulas can refer to when each formula has a given outcome. -/
def formulaEnvironment (formula : String → List Token) (outcome : String → Outcome) :
    Environment where
  isLabel := Label.isLabel
  read label :=
    if formula label = [] then none
    else some ⟨(outcome label).result, (outcome label).fault, true⟩

theorem Environment.resolve_of_empty {env : Environment} {label : Token} {cell : Reading}
    (read : env.read label = some cell) (fault : cell.fault = some .emptyFormula)
    (empty : cell.filled = false) : env.resolve label = .error .invalidCell := by
  rw [resolve, read]
  simp only [fault, empty]
  rfl

/-- The outcome of the formula under a label, from those of the formulas it refers to. -/
inductive Means (formula : String → List Token) : String → Outcome → Prop
  | intro (x : String) (outcome : String → Outcome) (filled : formula x ≠ [])
      (below : ∀ d ∈ formula x, Label.isLabel d = true → formula d ≠ [] →
        Means formula d (outcome d)) :
      Means formula x (evaluate (formulaEnvironment formula outcome) (formula x)).outcome

theorem formulaEnvironment_agreeOn {formula : String → List Token} {tokens : List Token}
    {outcome outcome' : String → Outcome}
    (alike : ∀ d ∈ tokens, Label.isLabel d = true → formula d ≠ [] → outcome d = outcome' d) :
    Environment.AgreeOn tokens (formulaEnvironment formula outcome)
      (formulaEnvironment formula outcome') := by
  intro d hd
  refine ⟨rfl, ?_⟩
  intro label
  have read : (formulaEnvironment formula outcome).read d =
      (formulaEnvironment formula outcome').read d := by
    by_cases empty : formula d = []
    · simp only [formulaEnvironment, if_pos empty]
    · simp only [formulaEnvironment, if_neg empty, alike d hd label empty]
  unfold Environment.resolve
  rw [read]

theorem Means.unique {formula : String → List Token} {x : String} {o o' : Outcome}
    (h : Means formula x o) (h' : Means formula x o') : o = o' := by
  induction h generalizing o' with
  | intro x outcome filled below ih =>
    cases h' with
    | intro _ outcome' _ below' =>
      have alike : ∀ d ∈ formula x, Label.isLabel d = true → formula d ≠ [] →
          outcome d = outcome' d := by
        intro d hd label filled
        exact ih d hd label filled (below' d hd label filled)
      rw [evaluate_congr (formulaEnvironment_agreeOn alike)]

namespace Sheet

def formula (s : Sheet) (label : String) : List Token := ((s.cell? label).map Cell.formula).getD []

def outcome (s : Sheet) (label : String) : Outcome := ((s.cell? label).map Cell.outcome).getD {}

theorem formula_of_cell? {s : Sheet} {x : String} {c : Cell} (h : s.cell? x = some c) :
    s.formula x = c.formula := by
  rw [formula, h]
  rfl

theorem outcome_of_cell? {s : Sheet} {x : String} {c : Cell} (h : s.cell? x = some c) :
    s.outcome x = c.outcome := by
  rw [outcome, h]
  rfl

theorem isFilled_iff {c : Cell} : c.isFilled = true ↔ c.formula ≠ [] := by
  cases hf : c.formula <;> simp [Cell.isFilled, hf]

theorem exists_cell?_of_formula {s : Sheet} {x : String} (h : s.formula x ≠ []) :
    ∃ c, s.cell? x = some c ∧ c.isFilled = true := by
  cases hc : s.cell? x with
  | none =>
    rw [formula, hc] at h
    exact absurd rfl h
  | some c =>
    rw [formula_of_cell? hc] at h
    exact ⟨c, rfl, isFilled_iff.mpr h⟩

theorem dependsOn_iff {s : Sheet} {x d : String} :
    s.DependsOn x d ↔ d ∈ s.formula x ∧ Label.isLabel d = true := by
  constructor
  · rintro ⟨c, hc, hd⟩
    rw [formula_of_cell? hc]
    exact mem_dependencies_iff.mp hd
  · rintro ⟨mem, label⟩
    obtain ⟨c, hc, _⟩ := exists_cell?_of_formula (List.ne_nil_of_mem mem)
    rw [formula_of_cell? hc] at mem
    exact ⟨c, hc, mem_dependencies_iff.mpr ⟨mem, label⟩⟩

theorem read_environment_of_cell? {s : Sheet} {d : String} {c : Cell} (h : s.cell? d = some c) :
    (s.environment Label.isLabel).read d = some c.reading := by
  simp only [environment, key_of_isKey (isKey_of_cell? h), h, Option.getD_some]

theorem resolve_of_unfilled {s : Sheet} (marked : s.BlanksMarked) {d : String}
    (label : Label.isLabel d = true) (h : s.formula d = []) :
    (s.environment Label.isLabel).resolve d = .error .invalidCell := by
  cases hc : s.cell? d with
  | some c =>
    rw [formula_of_cell? hc] at h
    have empty : c.isFilled = false := by rw [Cell.isFilled, h]; rfl
    exact Environment.resolve_of_empty (read_environment_of_cell? hc) (marked d c hc empty) empty
  | none =>
    cases hk : s.key d with
    | error e =>
      have read : (s.environment Label.isLabel).read d = none := by simp only [environment, hk]
      rw [Environment.resolve, read]
    | ok k =>
      have own : k = d := (key_eq_ok_iff.mp hk).1.trans (Label.upper_of_isLabel label)
      subst own
      have read : (s.environment Label.isLabel).read k = some (Cell.blank k).reading := by
        simp only [environment, hk, hc, Option.getD_none]
      exact Environment.resolve_of_empty read rfl rfl

/-- Formulas see of a sheet the outcomes of its formulas and nothing else. -/
theorem environment_agreeOn_formula {s : Sheet} (marked : s.BlanksMarked) (tokens : List Token) :
    Environment.AgreeOn tokens (s.environment Label.isLabel)
      (formulaEnvironment s.formula s.outcome) := by
  intro d _
  refine ⟨rfl, ?_⟩
  intro (label : Label.isLabel d = true)
  by_cases empty : s.formula d = []
  · have read : (formulaEnvironment s.formula s.outcome).read d = none := if_pos empty
    rw [resolve_of_unfilled marked label empty, Environment.resolve, read]
  · obtain ⟨c, hc, filled⟩ := exists_cell?_of_formula empty
    have read : (formulaEnvironment s.formula s.outcome).read d = some c.reading := by
      simp only [formulaEnvironment, if_neg empty, outcome_of_cell? hc, Cell.reading, filled]
      rfl
    rw [Environment.resolve, Environment.resolve, read, read_environment_of_cell? hc]

/-! What a pass keeps. -/

theorem Passed.formula {labels : List String} {s t : Sheet} (h : Passed labels s t)
    (stored : ∀ l ∈ labels, ∃ c, s.cell? l = some c) (x : String) : t.formula x = s.formula x := by
  cases hc : s.cell? x with
  | some c =>
    obtain ⟨o, ho⟩ := h.stored x c hc
    rw [formula_of_cell? hc, formula_of_cell? ho]
    rfl
  | none =>
    have apart : x ∉ labels := by
      intro mem
      obtain ⟨c, hc'⟩ := stored x mem
      rw [hc] at hc'
      cases hc'
    rcases h.aside x apart with same | ⟨_, blank⟩
    · rw [Sheet.formula, Sheet.formula, same]
    · rw [formula_of_cell? blank, Sheet.formula, hc]
      rfl

theorem Passed.blanksMarked {labels : List String} {s t : Sheet} (h : Passed labels s t)
    (filled : ∀ l ∈ labels, ∃ c, s.cell? l = some c ∧ c.isFilled = true)
    (marked : s.BlanksMarked) : t.BlanksMarked := by
  intro k c hc empty
  have apart : k ∉ labels := by
    intro mem
    obtain ⟨e, he, full⟩ := filled k mem
    obtain ⟨o, ho⟩ := h.stored k e he
    rw [ho] at hc
    cases hc
    exact absurd (full.symm.trans empty) (by decide)
  rcases h.aside k apart with same | ⟨_, blank⟩
  · exact marked k c (same ▸ hc) empty
  · rw [blank] at hc
    cases hc
    rfl

/-! The pass over all formulas. -/

theorem formula_recalculate {s : Sheet} (own : s.SelfLabelled) (x : String) :
    s.recalculate.sheet.formula x = s.formula x :=
  (recalculate_passed own).formula (stored_of_mem_evaluationOrder own) x

theorem blanksMarked_recalculate {s : Sheet} (own : s.SelfLabelled) (marked : s.BlanksMarked) :
    s.recalculate.sheet.BlanksMarked :=
  (recalculate_passed own).blanksMarked (fun _ hl => (mem_evaluationOrder_iff own).mp hl) marked

/-- No circle can be reached from the label along references. -/
def Acyclic (s : Sheet) (x : String) : Prop :=
  ∀ y, Relation.ReflTransGen s.DependsOn x y → ¬ Relation.TransGen s.DependsOn y y

theorem Acyclic.of_dependsOn {s : Sheet} {x d : String} (h : s.Acyclic x)
    (refers : s.DependsOn x d) : s.Acyclic d :=
  fun y reached => h y (.head refers reached)

theorem Acyclic.before {s : Sheet} {x d : String} (h : s.Acyclic x) (hx : x ∈ s.evaluationOrder)
    (refers : s.DependsOn x d) (hd : s.hasFormula d = true) :
    s.evaluationOrder.idxOf d < s.evaluationOrder.idxOf x := by
  rcases before_or_depends hx refers hd with before | back
  · exact before
  · exact absurd (.head refers back) (h x .refl)

theorem mem_evaluationOrder_of_formula {s : Sheet} (own : s.SelfLabelled) {x : String}
    (h : s.formula x ≠ []) : x ∈ s.evaluationOrder :=
  (mem_evaluationOrder_iff own).mpr (exists_cell?_of_formula h)

theorem recalculate_settled {s : Sheet} (own : s.SelfLabelled) {x : String} {c : Cell}
    (hc : s.cell? x = some c) (filled : c.isFilled = true) (acyclic : s.Acyclic x) :
    s.recalculate.sheet.cell? x =
      some (c.setOutcome (FormulaSheet.evaluate
        (s.recalculate.sheet.environment Label.isLabel) c.formula).outcome) := by
  have hx : x ∈ s.evaluationOrder := (mem_evaluationOrder_iff own).mpr ⟨c, hc, filled⟩
  have before : ∀ d ∈ c.formula, Label.isLabel d = true → d ∈ s.evaluationOrder →
      s.evaluationOrder.idxOf d < s.evaluationOrder.idxOf x := by
    intro d hd label mem
    refine acyclic.before hx ?_ (List.mem_filter.mp mem).2
    rw [dependsOn_iff, formula_of_cell? hc]
    exact ⟨hd, label⟩
  exact evaluateAll_settled own (stored_of_mem_evaluationOrder own) s.nodup_evaluationOrder hx hc
    before

theorem means_recalculate {s : Sheet} (own : s.SelfLabelled) (marked : s.BlanksMarked)
    {x : String} (filled : s.formula x ≠ []) (acyclic : s.Acyclic x) :
    Means s.formula x (s.recalculate.sheet.outcome x) := by
  -- on the place in the order: what x refers to comes earlier and has its meaning already
  induction hn : s.evaluationOrder.idxOf x using Nat.strongRecOn generalizing x with
  | ind n ih =>
    obtain ⟨c, hc, full⟩ := exists_cell?_of_formula filled
    have below : ∀ d ∈ s.formula x, Label.isLabel d = true → s.formula d ≠ [] →
        Means s.formula d (s.recalculate.sheet.outcome d) := by
      intro d hd label filledBelow
      have refers : s.DependsOn x d := dependsOn_iff.mpr ⟨hd, label⟩
      have mem := mem_evaluationOrder_of_formula own filledBelow
      have earlier := acyclic.before (mem_evaluationOrder_of_formula own filled) refers
        (List.mem_filter.mp mem).2
      exact ih _ (hn ▸ earlier) filledBelow (acyclic.of_dependsOn refers) rfl
    have formulas : s.recalculate.sheet.formula = s.formula := funext (formula_recalculate own)
    have agree := environment_agreeOn_formula (blanksMarked_recalculate own marked) c.formula
    rw [formulas] at agree
    have meaning := Means.intro x s.recalculate.sheet.outcome filled below
    rw [formula_of_cell? hc, ← evaluate_congr agree] at meaning
    rw [outcome_of_cell? (recalculate_settled own hc full acyclic)]
    exact meaning

theorem cell?_recalculate {s : Sheet} (own : s.SelfLabelled) {x : String} {c : Cell}
    (hc : s.cell? x = some c) (filled : c.isFilled = true) (acyclic : s.Acyclic x) :
    s.recalculate.sheet.cell? x = some (c.setOutcome (s.recalculate.sheet.outcome x)) := by
  have settled := recalculate_settled own hc filled acyclic
  rw [outcome_of_cell? settled]
  exact settled

theorem dependsOn_congr {s t : Sheet} (same : t.formula = s.formula) :
    t.DependsOn = s.DependsOn := by
  funext a b
  rw [eq_iff_iff, dependsOn_iff, dependsOn_iff, same]

theorem Acyclic.congr {s t : Sheet} (same : t.formula = s.formula) {x : String}
    (h : s.Acyclic x) : t.Acyclic x := by
  unfold Acyclic
  rw [dependsOn_congr same]
  exact h

/-- Recalculating leaves on a formula that reaches no circle what it means. That is also what the
final sheet gives for it; it depends on the formulas of the sheet alone, and recalculating again
does not change it. -/
theorem recalculate_meaning {s : Sheet} (own : s.SelfLabelled) (marked : s.BlanksMarked)
    {x : String} {c : Cell} (hc : s.cell? x = some c) (filled : c.isFilled = true)
    (acyclic : s.Acyclic x) :
    ∃ o, Means s.formula x o ∧ (∀ o', Means s.formula x o' → o' = o) ∧
      s.recalculate.sheet.cell? x = some (c.setOutcome o) ∧
      (s.recalculate.sheet.evaluate Label.isLabel c.formula).1 = o ∧
      (∀ t : Sheet, t.SelfLabelled → t.BlanksMarked → t.formula = s.formula →
        t.recalculate.sheet.outcome x = o) ∧
      s.recalculate.sheet.recalculate.sheet.cell? x = s.recalculate.sheet.cell? x := by
  have nonempty : s.formula x ≠ [] := by
    rw [formula_of_cell? hc]
    exact isFilled_iff.mp filled
  have meaning := means_recalculate own marked nonempty acyclic
  have cell := cell?_recalculate own hc filled acyclic
  have anew : ∀ t : Sheet, t.SelfLabelled → t.BlanksMarked → t.formula = s.formula →
      t.recalculate.sheet.outcome x = s.recalculate.sheet.outcome x := by
    intro t ownThere markedThere same
    have there := means_recalculate ownThere markedThere (same ▸ nonempty) (acyclic.congr same)
    rw [same] at there
    exact there.unique meaning
  refine ⟨s.recalculate.sheet.outcome x, meaning, ?_, cell, ?_, anew, ?_⟩
  · intro o' meaning'
    exact meaning'.unique meaning
  · exact (outcome_of_cell? (recalculate_settled own hc filled acyclic)).symm
  · have ownAfter := (recalculate_passed own).own
    have same := funext (formula_recalculate own)
    rw [cell?_recalculate ownAfter cell filled (acyclic.congr same),
      anew _ ownAfter (blanksMarked_recalculate own marked) same, setOutcome_setOutcome, cell]

theorem Acyclic.of_below {s : Sheet} {x : String} (below : ∀ d, s.DependsOn x d → s.Acyclic d) :
    s.Acyclic x := by
  intro y reached back
  rcases Relation.ReflTransGen.cases_head reached with rfl | ⟨d, refers, behind⟩
  · obtain ⟨d, refers, round⟩ := Relation.TransGen.head'_iff.mp back
    exact below d refers d .refl (.tail' round refers)
  · exact below d refers y behind back

theorem circle_blanksMarked : circle.BlanksMarked := by
  intro k c hc empty
  obtain ⟨slot, hs, rfl⟩ := cell?_eq_some_iff.mp hc
  have mem := mem_keys_of_lookup hs
  simp only [circle, List.mem_cons, Prod.mk.injEq, List.not_mem_nil, or_false] at mem
  rcases mem with ⟨_, rfl⟩ | ⟨_, rfl⟩ | ⟨_, rfl⟩ | ⟨_, rfl⟩
  all_goals cases empty

theorem circle_acyclic_aside : circle.Acyclic "B1" := by
  have last : circle.Acyclic "A2" := by
    apply Acyclic.of_below
    rintro d ⟨c, hc, hd⟩
    cases hc
    have none : (circle.cellAt 3).dependencies = [] := by decide
    rw [none] at hd
    cases hd
  apply Acyclic.of_below
  rintro d ⟨c, hc, hd⟩
  cases hc
  have only : (circle.cellAt 0).dependencies = ["A2"] := by decide
  rw [only, List.mem_singleton] at hd
  exact hd ▸ last

theorem recalculate_meaning_aside_of_circle :
    circle.SelfLabelled ∧ circle.BlanksMarked ∧ circle.Acyclic "B1" ∧
      ∃ o, Means circle.formula "B1" o ∧
        circle.recalculate.sheet.cell? "B1" = some ((circle.cellAt 0).setOutcome o) := by
  obtain ⟨o, meaning, _, cell, _⟩ :=
    recalculate_meaning circle_selfLabelled circle_blanksMarked (x := "B1")
      (c := circle.cellAt 0) rfl rfl circle_acyclic_aside
  exact ⟨circle_selfLabelled, circle_blanksMarked, circle_acyclic_aside, o, meaning, cell⟩

end Sheet

end FormulaSheet
