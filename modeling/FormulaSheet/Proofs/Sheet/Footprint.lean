import FormulaSheet.Proofs.Formula.Lookups
import FormulaSheet.Proofs.Sheet.Entry
/-!
What an evaluation leaves on a sheet. The formula itself adds blank cells, where it looks up labels
that have none; evaluating a cell writes the outcome on that cell besides, and a recalculation on
the cells that have formulas. All other cells stay as they were, and so does the size of the sheet.
-/

namespace FormulaSheet.Sheet

/-- The second sheet is the first one, but for the cells under the keys that are written, and for
blank cells under those keys without a cell that are added. -/
structure Footprint (written added : String → Prop) (s t : Sheet) : Prop where
  rows : t.rows = s.rows
  columns : t.columns = s.columns
  inside : ∀ e ∈ t.keys, Label.isKey s.rows s.columns e.1 = true
  kept : ∀ k c, ¬ written k → s.cell? k = some c → t.cell? k = some c
  blank : ∀ k, ¬ written k → s.cell? k = none → added k → t.cell? k = some (.blank k)
  absent : ∀ k, ¬ written k → s.cell? k = none → ¬ added k → t.cell? k = none

theorem isKey_of_size {s t : Sheet} (rows : t.rows = s.rows) (columns : t.columns = s.columns) :
    ∀ e ∈ t.keys, Label.isKey s.rows s.columns e.1 = true := by
  rw [← rows, ← columns]
  exact t.inside

section

variable {written added : String → Prop} {s t u : Sheet}

/-- What is changed behind it, under keys that are written as well. -/
theorem Footprint.write {written' : String → Prop} (h : Footprint written added s t)
    (more : ∀ k, written k → written' k) (rows : u.rows = t.rows) (columns : u.columns = t.columns)
    (same : ∀ k, ¬ written' k → u.cell? k = t.cell? k) : Footprint written' added s u := by
  have rows := rows.trans h.rows
  have columns := columns.trans h.columns
  refine ⟨rows, columns, isKey_of_size rows columns, ?_, ?_, ?_⟩
  · intro k c apart hc
    exact (same k apart).trans (h.kept k c (mt (more k) apart) hc)
  · intro k apart none named
    exact (same k apart).trans (h.blank k (mt (more k) apart) none named)
  · intro k apart none unnamed
    exact (same k apart).trans (h.absent k (mt (more k) apart) none unnamed)

/-- What is changed in front of it, under keys that it writes. -/
theorem Footprint.behind (h : Footprint written added t u) (rows : t.rows = s.rows)
    (columns : t.columns = s.columns) (same : ∀ k, ¬ written k → t.cell? k = s.cell? k) :
    Footprint written added s u := by
  have rows := h.rows.trans rows
  have columns := h.columns.trans columns
  refine ⟨rows, columns, isKey_of_size rows columns, ?_, ?_, ?_⟩
  · intro k c apart hc
    exact h.kept k c apart ((same k apart).trans hc)
  · intro k apart none named
    exact h.blank k apart ((same k apart).trans none) named
  · intro k apart none unnamed
    exact h.absent k apart ((same k apart).trans none) unnamed

end

/-! Labels that are looked up. -/

theorem cell?_touch_of_notMem {s : Sheet} {labels : List String} {k : String}
    (h : ∀ label ∈ labels, s.key label ≠ .ok k) : (s.touch labels).cell? k = s.cell? k := by
  induction labels generalizing s with
  | nil => rfl
  | cons label rest ih =>
    obtain ⟨apart, others⟩ := List.forall_mem_cons.mp h
    rw [touch_cons]
    cases found : s.locate label with
    | error e => exact ih others
    | ok r =>
      obtain ⟨slot, t⟩ := r
      have located := located_of_locate found
      have other : k ≠ Text.upper label := by
        rintro rfl
        have inside := isKey_of_lookup located.slot
        rw [located.rows, located.columns] at inside
        exact apart (key_eq_ok_iff.mpr ⟨rfl, inside⟩)
      have same : t.cell? k = s.cell? k := by rw [located.cell, if_neg other]
      have othersThere : ∀ label ∈ rest, t.key label ≠ .ok k := by
        intro label hl
        rw [key_congr located.rows located.columns]
        exact others label hl
      exact (ih othersThere).trans same

theorem cell?_touch_of_mem {s : Sheet} {labels : List String} {k label : String}
    (mem : label ∈ labels) (hk : s.key label = .ok k) :
    (s.touch labels).cell? k = some ((s.cell? k).getD (.blank k)) := by
  induction labels generalizing s with
  | nil => cases mem
  | cons first rest ih =>
    rw [touch_cons]
    cases found : s.locate first with
    | error e =>
      rcases List.mem_cons.mp mem with rfl | mem
      · rw [locate_eq_error_iff.mp found] at hk
        cases hk
      · exact ih mem hk
    | ok r =>
      obtain ⟨slot, t⟩ := r
      have located := located_of_locate found
      by_cases here : k = Text.upper first
      · rw [← here] at located
        have cell := located.cell k
        rw [if_pos rfl] at cell
        exact ((grows_touch t rest).cells k).cell? cell
      · rcases List.mem_cons.mp mem with rfl | mem
        · exact absurd (key_eq_ok_iff.mp hk).1 here
        · have there : t.key label = .ok k := (key_congr located.rows located.columns label).trans hk
          have same := located.cell k
          rw [if_neg here] at same
          rw [← same]
          exact ih mem there

/-- A label that the formula looks up has the key. -/
def Names (s : Sheet) (isLabel : Token → Bool) (tokens : List Token) (k : String) : Prop :=
  ∃ label, LooksUp (s.environment isLabel) tokens label ∧ s.key label = .ok k

theorem evaluate_footprint (s : Sheet) (isLabel : Token → Bool) (tokens : List Token) :
    Footprint (fun _ => False) (s.Names isLabel tokens) s (s.evaluate isLabel tokens).2 := by
  have grown := grows_touch s (FormulaSheet.evaluate (s.environment isLabel) tokens).labels
  refine ⟨grown.rows, grown.columns, isKey_of_size grown.rows grown.columns, ?_, ?_, ?_⟩
  · intro k c _ hc
    exact (grown.cells k).cell? hc
  · rintro k _ none ⟨label, looked, hk⟩
    refine (cell?_touch_of_mem (mem_labels_evaluate.mpr looked) hk).trans ?_
    rw [none]
    rfl
  · intro k _ none unnamed
    refine (cell?_touch_of_notMem ?_).trans none
    intro label mem hk
    exact unnamed ⟨label, mem_labels_evaluate.mp mem, hk⟩

/-! Cells that are evaluated. -/

theorem Names.congr {s t : Sheet} (h : Grows s t) {isLabel : Token → Bool} {tokens : List Token} :
    t.Names isLabel tokens = s.Names isLabel tokens := by
  unfold Names
  rw [h.environment]
  simp only [key_congr h.rows h.columns]

/-- Evaluating a cell writes its outcome on it. -/
theorem evaluateSlot_footprint {s : Sheet} (own : s.SelfLabelled) {k : String} {slot : Nat}
    (h : s.keys.lookup k = some slot) :
    Footprint (· = k) (s.Names Label.isLabel (s.formula k)) s (s.evaluateSlot slot).sheet := by
  have cell : s.cell? k = some (s.cellAt slot) := cell?_eq_some_iff.mpr ⟨slot, h, rfl⟩
  rw [formula_of_cell? cell]
  have touched := s.evaluate_footprint Label.isLabel (s.cellAt slot).formula
  have grown := grows_touch s
    (FormulaSheet.evaluate (s.environment Label.isLabel) (s.cellAt slot).formula).labels
  have written : ∀ k', ¬ k' = k → (s.evaluateSlot slot).sheet.cell? k' =
      (s.evaluate Label.isLabel (s.cellAt slot).formula).2.cell? k' := by
    intro k' apart
    exact (cell?_modify (grown.selfLabelled own) (grown.slots k slot h) _ k').trans (if_neg apart)
  exact touched.write (fun _ => False.elim) rfl rfl written

theorem evaluateCell_footprint {s : Sheet} (own : s.SelfLabelled) {label : String}
    {done : Calculated Outcome} (evaluated : s.evaluateCell label = .ok done) :
    ∃ k, s.key label = .ok k ∧
      done.sheet.cell? k = some (((s.cell? k).getD (.blank k)).setOutcome done.value) ∧
      Footprint (· = k) (s.Names Label.isLabel (s.formula k)) s done.sheet := by
  cases hk : s.key label with
  | error e =>
    rw [evaluateCell, locate_eq_error_iff.mpr hk] at evaluated
    cases evaluated
  | ok k =>
    obtain ⟨slot, t, found, located⟩ := exists_locate hk
    rw [evaluateCell, found] at evaluated
    cases evaluated
    have grown := located.grows
    have ownThere := grown.selfLabelled own
    obtain ⟨_, cell, _⟩ := evaluateSlot_passed ownThere located.slot
    rw [located.cellAt] at cell
    have there := evaluateSlot_footprint ownThere located.slot
    rw [(grown.cells k).formula, Names.congr grown] at there
    have before : ∀ k', ¬ k' = k → t.cell? k' = s.cell? k' := by
      intro k' apart
      rw [located.cell, if_neg apart]
    exact ⟨k, rfl, cell, there.behind grown.rows grown.columns before⟩

theorem evaluateCell_eq_error_iff {s : Sheet} {label : String} {e : ReferenceError} :
    s.evaluateCell label = .error e ↔ s.key label = .error e := by
  rw [← locate_eq_error_iff, evaluateCell]
  cases s.locate label with
  | error e' =>
    constructor
    · intro h
      cases h
      rfl
    · intro h
      cases h
      rfl
  | ok r =>
    constructor
    · intro h
      cases h
    · intro h
      cases h

/-! A pass. -/

theorem dependsOn_of_names {s : Sheet} {x k : String}
    (h : s.Names Label.isLabel (s.formula x) k) : s.DependsOn x k := by
  obtain ⟨label, looked, hk⟩ := h
  have own : k = label := (key_eq_ok_iff.mp hk).1.trans (Label.upper_of_isLabel looked.isLabel)
  rw [own]
  exact dependsOn_iff.mpr ⟨looked.mem, looked.isLabel⟩

/-- A pass adds cells where its formulas refer to labels without one. -/
theorem evaluateAll_adds {labels : List String} {s : Sheet} (own : s.SelfLabelled)
    (stored : ∀ l ∈ labels, ∃ c, s.cell? l = some c) {k : String} (before : s.cell? k = none)
    (new : (s.evaluateAll labels).sheet.cell? k ≠ none) : ∃ l ∈ labels, s.DependsOn l k := by
  induction labels generalizing s with
  | nil => exact absurd before new
  | cons l rest ih =>
    obtain ⟨c, hc⟩ := stored l List.mem_cons_self
    obtain ⟨slot, hs, _⟩ := cell?_eq_some_iff.mp hc
    obtain ⟨_, _, first⟩ := evaluateSlot_passed own hs
    have footprint := evaluateSlot_footprint own hs
    have later := stored_of_passed first fun l' hl => stored l' (List.mem_cons_of_mem l hl)
    by_cases named : s.Names Label.isLabel (s.formula l) k
    · exact ⟨l, List.mem_cons_self, dependsOn_of_names named⟩
    · have other : ¬ k = l := by
        rintro rfl
        rw [before] at hc
        cases hc
      have still := footprint.absent k other before named
      rw [(evaluateAll_cons hs rest).2] at new
      obtain ⟨l', hl', refers⟩ := ih first.own later still new
      have formulas : (s.evaluateSlot slot).sheet.formula = s.formula :=
        funext (first.formula fun l' hl' => List.mem_singleton.mp hl' ▸ ⟨c, hc⟩)
      rw [dependsOn_congr formulas] at refers
      exact ⟨l', List.mem_cons_of_mem l hl', refers⟩

theorem recalculate_footprint {s : Sheet} (own : s.SelfLabelled) :
    Footprint (fun k => s.formula k ≠ [])
      (fun k => s.recalculate.sheet.cell? k ≠ none) s s.recalculate.sheet := by
  have passed := recalculate_passed own
  have aside : ∀ k, ¬ s.formula k ≠ [] → BlankOrSame s s.recalculate.sheet k := by
    intro k unfilled
    refine passed.aside k fun mem => unfilled ?_
    obtain ⟨c, hc, filled⟩ := (mem_evaluationOrder_iff own).mp mem
    rw [formula_of_cell? hc]
    exact isFilled_iff.mp filled
  refine ⟨passed.rows, passed.columns, isKey_of_size passed.rows passed.columns, ?_, ?_, ?_⟩
  · intro k c unfilled hc
    exact (aside k unfilled).cell? hc
  · intro k unfilled none added
    rcases aside k unfilled with same | ⟨_, blank⟩
    · exact absurd (same.trans none) added
    · exact blank
  · intro k _ _ absent
    exact not_not.mp absent

/-- Evaluating a formula changes no cell and adds blank ones, exactly under those keys without a
cell that the labels looked up have. Evaluating the cell of a label writes its outcome on that cell
besides. A recalculation writes outcomes on the cells with formulas and adds no cell but blank ones
under labels that formulas refer to. Nothing changes the size of the sheet. -/
theorem minimal_footprint {s : Sheet} (own : s.SelfLabelled) :
    (∀ isLabel tokens, Footprint (fun _ => False) (s.Names isLabel tokens) s
      (s.evaluate isLabel tokens).2) ∧
    (∀ label, (∀ e, s.evaluateCell label = .error e ↔ s.key label = .error e) ∧
      ∀ done, s.evaluateCell label = .ok done → ∃ k, s.key label = .ok k ∧
        done.sheet.cell? k = some (((s.cell? k).getD (.blank k)).setOutcome done.value) ∧
        Footprint (· = k) (s.Names Label.isLabel (s.formula k)) s done.sheet) ∧
    ∃ added, Footprint (fun k => s.formula k ≠ []) added s s.recalculate.sheet ∧
      (∀ k, s.cell? k = none → added k → ∃ l, s.DependsOn l k) ∧
      ∀ k c, s.cell? k = some c → ∃ o, s.recalculate.sheet.cell? k = some (c.setOutcome o) := by
  refine ⟨s.evaluate_footprint, ?_, _, recalculate_footprint own, ?_,
    (recalculate_passed own).stored⟩
  · exact fun label => ⟨fun _ => evaluateCell_eq_error_iff, fun _ => evaluateCell_footprint own⟩
  · intro k none new
    obtain ⟨l, _, refers⟩ := evaluateAll_adds own (stored_of_mem_evaluationOrder own) none new
    exact ⟨l, refers⟩

/-- A sum inside a parenthesis, which comes to an end at its first reference, and a cell without a
formula that holds a number. -/
def unclosed : Sheet where
  rows := 5
  columns := 4
  keys := [("B2", 0), ("A1", 1)]
  pool := #[{ label := "B2", formula := [], value := 5.0, fault := none },
    { label := "A1", formula := ["(", "C3", "+", "D4"], value := 7.0, fault := none }]
  rows_pos := by decide
  columns_pos := by decide
  stored := by decide
  inside := by decide
  distinct := by decide

theorem unclosed_keys {k : String} {c : Cell} (h : unclosed.cell? k = some c) :
    (k = "B2" ∧ c = unclosed.cellAt 0) ∨ (k = "A1" ∧ c = unclosed.cellAt 1) := by
  obtain ⟨slot, hs, rfl⟩ := cell?_eq_some_iff.mp h
  have mem := mem_keys_of_lookup hs
  simp only [unclosed, List.mem_cons, Prod.mk.injEq, List.not_mem_nil, or_false] at mem
  rcases mem with ⟨rfl, rfl⟩ | ⟨rfl, rfl⟩
  · exact .inl ⟨rfl, rfl⟩
  · exact .inr ⟨rfl, rfl⟩

theorem unclosed_selfLabelled : unclosed.SelfLabelled := by
  intro k c hc
  rcases unclosed_keys hc with ⟨rfl, rfl⟩ | ⟨rfl, rfl⟩
  · rfl
  · rfl

theorem unclosed_names : unclosed.Names Label.isLabel ["(", "C3", "+", "D4"] "C3" := by
  refine ⟨"C3", ⟨["("], ["+", "D4"], ⟨.operandDue {} [{}], none⟩, by decide, rfl, ?_⟩, ?_⟩
  · exact ⟨⟨_, _, rfl⟩, by decide, by decide +kernel⟩
  · exact key_of_isKey (by decide +kernel)

theorem unclosed_names_not : ¬ unclosed.Names Label.isLabel ["(", "C3", "+", "D4"] "D4" := by
  rintro ⟨label, looked, hk⟩
  have here : "D4" = label := (key_eq_ok_iff.mp hk).1.trans (Label.upper_of_isLabel looked.isLabel)
  subst here
  obtain ⟨front, behind, r, split, advanced, _⟩ := looked
  have body : withoutTrailing ["(", "C3", "+", "D4"] = ["(", "C3", "+"] ++ "D4" :: [] := by
    decide
  rw [body] at split
  obtain ⟨rfl, _⟩ := (List.append_cons_inj_of_notMem (by decide) (by decide)).mp split
  have stopped : Reader.advance (unclosed.environment Label.isLabel) {} ["(", "C3", "+"] =
      .error ⟨.invalidCell, 0.0, none⟩ := by
    decide +kernel
  rw [stopped] at advanced
  cases advanced

theorem unclosed_dependsOn {l d : String} (h : unclosed.DependsOn l d) : d = "C3" ∨ d = "D4" := by
  obtain ⟨c, hc, hd⟩ := h
  rcases unclosed_keys hc with ⟨rfl, rfl⟩ | ⟨rfl, rfl⟩
  · have none : (unclosed.cellAt 0).dependencies = [] := by decide
    rw [none] at hd
    cases hd
  · have both : (unclosed.cellAt 1).dependencies = ["C3", "D4"] := by decide
    rw [both] at hd
    simpa using hd

theorem minimal_footprint_of_unclosed :
    unclosed.SelfLabelled ∧
      (∃ t, (unclosed.evaluate Label.isLabel ["(", "C3", "+", "D4"]).2 = t ∧
        t.cell? "A1" = some (unclosed.cellAt 1) ∧ t.cell? "B2" = some (unclosed.cellAt 0) ∧
        t.cell? "C3" = some (.blank "C3") ∧ t.cell? "D4" = none) ∧
      (∃ done, unclosed.evaluateCell "a1" = .ok done ∧
        done.sheet.cell? "A1" = some ((unclosed.cellAt 1).setOutcome done.value) ∧
        done.sheet.cell? "B2" = some (unclosed.cellAt 0) ∧
        done.sheet.cell? "C3" = some (.blank "C3") ∧ done.sheet.cell? "D4" = none) ∧
      (∃ o, unclosed.recalculate.sheet.cell? "A1" = some ((unclosed.cellAt 1).setOutcome o)) ∧
      unclosed.recalculate.sheet.cell? "B2" = some (unclosed.cellAt 0) ∧
      unclosed.recalculate.sheet.cell? "A2" = none := by
  obtain ⟨touched, evaluated, added, recalculated, referred, results⟩ :=
    minimal_footprint unclosed_selfLabelled
  refine ⟨unclosed_selfLabelled, ⟨_, rfl, ?_, ?_, ?_, ?_⟩, ?_, results "A1" _ rfl, ?_, ?_⟩
  · exact (touched _ _).kept "A1" _ not_false rfl
  · exact (touched _ _).kept "B2" _ not_false rfl
  · exact (touched _ _).blank "C3" not_false rfl unclosed_names
  · exact (touched _ _).absent "D4" not_false rfl unclosed_names_not
  · obtain ⟨refused, written⟩ := evaluated "a1"
    have key : unclosed.key "a1" = .ok "A1" := by decide +kernel
    cases ran : unclosed.evaluateCell "a1" with
    | error e =>
      have failed := (refused e).mp ran
      rw [key] at failed
      cases failed
    | ok done =>
      obtain ⟨k, hk, own, footprint⟩ := written done ran
      rw [key] at hk
      cases hk
      exact ⟨done, rfl, own, footprint.kept "B2" _ (by decide) rfl,
        footprint.blank "C3" (by decide) rfl unclosed_names,
        footprint.absent "D4" (by decide) rfl unclosed_names_not⟩
  · exact recalculated.kept "B2" _ (fun filled => filled rfl) rfl
  · refine recalculated.absent "A2" (fun filled => filled rfl) rfl fun new => ?_
    obtain ⟨l, refers⟩ := referred "A2" rfl new
    rcases unclosed_dependsOn refers with same | same
    · exact absurd same (by decide)
    · exact absurd same (by decide)

end FormulaSheet.Sheet
