import FormulaSheet.Proofs.Sheet.EditOrder
/-!
What an edit leaves alone. The outcome of a formula that reaches no circle depends on the formulas
that it reaches, and on nothing else. So where a sheet still shows what a recalculation left on it,
entering a formula changes only cells from which the edited one or a circle can be reached, although
every formula is evaluated again, in an order that the edit may have changed.
-/

namespace FormulaSheet

/-- The meaning of a formula is the same among other formulas, if they agree on labels that include
its own and all that these refer to. -/
theorem Means.congr {formula formula' : String → List Token} {x : String} {o : Outcome}
    (h : Means formula x o) {p : String → Prop} (here : p x)
    (closed : ∀ a, p a → ∀ d ∈ formula a, Label.isLabel d = true → p d)
    (same : ∀ a, p a → formula' a = formula a) : Means formula' x o := by
  induction h with
  | intro x outcome filled below ih =>
    have reached : ∀ d ∈ formula x, Label.isLabel d = true → formula' d = formula d :=
      fun d hd label => same d (closed x here d hd label)
    have filledThere : formula' x ≠ [] := by
      rw [same x here]
      exact filled
    have belowThere : ∀ d ∈ formula' x, Label.isLabel d = true → formula' d ≠ [] →
        Means formula' d (outcome d) := by
      intro d hd label filledBelow
      rw [same x here] at hd
      rw [reached d hd label] at filledBelow
      exact ih d hd label filledBelow (closed x here d hd label)
    have agree : Environment.AgreeOn (formula x) (formulaEnvironment formula' outcome)
        (formulaEnvironment formula outcome) := by
      intro d hd
      refine ⟨rfl, ?_⟩
      intro (label : Label.isLabel d = true)
      have read : (formulaEnvironment formula' outcome).read d =
          (formulaEnvironment formula outcome).read d := by
        simp only [formulaEnvironment, reached d hd label]
      rw [Environment.resolve, Environment.resolve, read]
    have meaning := Means.intro x outcome filledThere belowThere
    rw [same x here, evaluate_congr agree] at meaning
    exact meaning

namespace Sheet

/-! Two sheets whose formulas differ under one key. -/

section Edited

variable {s t : Sheet} {k : String} (others : ∀ x, x ≠ k → t.formula x = s.formula x)
include others

theorem dependsOn_of_others {x d : String} (other : x ≠ k) (h : t.DependsOn x d) :
    s.DependsOn x d := by
  rw [dependsOn_iff, others x other] at h
  exact dependsOn_iff.mpr h

/-- A way that did not lead to the edited label before is the same as before. -/
theorem reaches_of_others {x y : String} (apart : ¬ Relation.ReflTransGen s.DependsOn x k)
    (h : Relation.ReflTransGen t.DependsOn x y) : Relation.ReflTransGen s.DependsOn x y := by
  induction h with
  | refl => exact .refl
  | tail _ last ih =>
    have other : _ ≠ k := fun same => apart (same ▸ ih)
    exact ih.tail (dependsOn_of_others others other last)

theorem acyclic_of_others {x : String} (apart : ¬ Relation.ReflTransGen s.DependsOn x k)
    (h : s.Acyclic x) : t.Acyclic x := by
  intro y reached circle
  have before := reaches_of_others others apart reached
  obtain ⟨z, first, back⟩ := Relation.TransGen.head'_iff.mp circle
  have other : y ≠ k := fun same => apart (same ▸ before)
  have led := dependsOn_of_others others other first
  have apartThere : ¬ Relation.ReflTransGen s.DependsOn z k :=
    fun edited => apart ((before.tail led).trans edited)
  exact h y before (.head' led (reaches_of_others others apartThere back))

theorem means_of_others {x : String} (apart : ¬ Relation.ReflTransGen s.DependsOn x k)
    {o : Outcome} (h : Means s.formula x o) : Means t.formula x o := by
  refine h.congr (p := Relation.ReflTransGen s.DependsOn x) .refl ?_ ?_
  · intro a reached d hd label
    exact reached.tail (dependsOn_iff.mpr ⟨hd, label⟩)
  · intro a reached
    exact others a fun same => apart (same ▸ reached)

end Edited

/-- The cells with formulas still hold what recalculating the first sheet left on them, and no
formula has changed since. Cells without a formula may have come and gone. -/
structure HoldsPass (s t : Sheet) : Prop where
  own : s.SelfLabelled
  marked : s.BlanksMarked
  formula : t.formula = s.formula
  outcome : ∀ x, t.formula x ≠ [] → t.outcome x = s.recalculate.sheet.outcome x

theorem HoldsPass.means {s t : Sheet} (h : HoldsPass s t) {x : String} (filled : t.formula x ≠ [])
    (acyclic : t.Acyclic x) : Means t.formula x (t.outcome x) := by
  rw [h.outcome x filled]
  rw [h.formula] at filled ⊢
  exact means_recalculate h.own h.marked filled (acyclic.congr h.formula.symm)

/-- In a sheet that holds what a recalculation left, entering a formula changes no formula but that
of its label, and no value and no fault of a formula from which neither the label nor a circle can
be reached. -/
theorem edit_reaches_dependents_only {s t : Sheet} (own : t.SelfLabelled) (marked : t.BlanksMarked)
    (holds : HoldsPass s t) {label k : String} (inside : t.key label = .ok k)
    {input : FormulaInput} {tokens : List Token} (readable : input.read = .ok tokens) :
    (∃ o, (t.setFormula label input).value = .ok o) ∧
      (t.setFormula label input).sheet.formula k = tokens ∧
      (∀ x, x ≠ k → (t.setFormula label input).sheet.formula x = t.formula x) ∧
      ∀ x c, t.cell? x = some c → c.isFilled = true → x ≠ k →
        ¬ Relation.TransGen t.DependsOn x k → t.Acyclic x →
        (t.setFormula label input).sheet.cell? x = some c := by
  obtain ⟨accepted, u, stored, sheet⟩ := setFormula_entered own inside input readable
  have done := stored.recalculate
  rw [sheet]
  refine ⟨accepted, ?_, done.elsewhere, ?_⟩
  · obtain ⟨c, hc, formula⟩ := done.here
    rw [formula_of_cell? hc, formula]
  · intro x c hc filled other unreached acyclic
    have apart : ¬ Relation.ReflTransGen t.DependsOn x k := by
      rw [Relation.reflTransGen_iff_eq_or_transGen]
      rintro (same | reached)
      · exact other same.symm
      · exact unreached reached
    have filledBefore : t.formula x ≠ [] := formula_of_cell? hc ▸ isFilled_iff.mp filled
    have filledThere : u.formula x ≠ [] := stored.elsewhere x other ▸ filledBefore
    have before := means_of_others stored.elsewhere apart (holds.means filledBefore acyclic)
    have after := means_recalculate stored.own (stored.marked marked) filledThere
      (acyclic_of_others stored.elsewhere apart acyclic)
    obtain ⟨c', hc'⟩ := done.kept x c hc
    have outcome := after.unique before
    have formula := done.elsewhere x other
    rw [outcome_of_cell? hc, outcome_of_cell? hc'] at outcome
    rw [formula_of_cell? hc, formula_of_cell? hc'] at formula
    rw [hc', cell_eq own done.own hc hc' formula (congrArg Outcome.result outcome)
      (congrArg Outcome.fault outcome)]

theorem dependsOn_aside_of_circle {x d : String} (aside : x = "B1" ∨ x = "A2")
    (h : circle.DependsOn x d) : d = "A2" := by
  obtain ⟨c, hc, hd⟩ := h
  rcases aside with rfl | rfl
  · cases hc
    have only : (circle.cellAt 0).dependencies = ["A2"] := by decide
    rw [only] at hd
    exact List.mem_singleton.mp hd
  · cases hc
    have none : (circle.cellAt 3).dependencies = [] := by decide
    rw [none] at hd
    cases hd

theorem reaches_aside_of_circle {y : String} (h : Relation.TransGen circle.DependsOn "B1" y) :
    y = "A2" := by
  induction h with
  | single first => exact dependsOn_aside_of_circle (.inl rfl) first
  | tail _ last ih => exact dependsOn_aside_of_circle (.inr ih) last

theorem holdsPass_circle : HoldsPass circle circle.recalculate.sheet where
  own := circle_selfLabelled
  marked := circle_blanksMarked
  formula := funext (formula_recalculate circle_selfLabelled)
  outcome _ _ := rfl

/-- Opening the circle where it comes to no cell aside of it. -/
theorem edit_of_circle :
    circle.recalculate.sheet.SelfLabelled ∧ circle.recalculate.sheet.BlanksMarked ∧
      HoldsPass circle circle.recalculate.sheet ∧
      circle.recalculate.sheet.key "b2" = .ok "B2" ∧
      FormulaInput.read (.text "=A2 / 0") = .ok ["A2", "/", "0"] ∧
      ∃ c, circle.recalculate.sheet.cell? "B1" = some c ∧ c.isFilled = true ∧ "B1" ≠ "B2" ∧
        ¬ Relation.TransGen circle.recalculate.sheet.DependsOn "B1" "B2" ∧
        circle.recalculate.sheet.Acyclic "B1" ∧
        (circle.recalculate.sheet.setFormula "b2" (.text "=A2 / 0")).sheet.cell? "B1" =
          some c := by
  have passed := recalculate_passed circle_selfLabelled
  have marked := blanksMarked_recalculate circle_selfLabelled circle_blanksMarked
  have inside : circle.recalculate.sheet.key "b2" = .ok "B2" := by
    rw [key_congr passed.rows passed.columns]
    decide +kernel
  have readable : FormulaInput.read (.text "=A2 / 0") = .ok ["A2", "/", "0"] := by
    decide +kernel
  have cell := cell?_recalculate circle_selfLabelled (x := "B1") (c := circle.cellAt 0) rfl rfl
    circle_acyclic_aside
  have apart : ¬ Relation.TransGen circle.recalculate.sheet.DependsOn "B1" "B2" := by
    rw [dependsOn_congr holdsPass_circle.formula]
    intro reached
    exact absurd (reaches_aside_of_circle reached) (by decide)
  have acyclic := circle_acyclic_aside.congr holdsPass_circle.formula
  have spared := (edit_reaches_dependents_only passed.own marked holdsPass_circle inside
    readable).2.2.2
  exact ⟨passed.own, marked, holdsPass_circle, inside, readable, _, cell, rfl, by decide, apart,
    acyclic, spared "B1" _ cell rfl (by decide) apart acyclic⟩

end Sheet

end FormulaSheet
