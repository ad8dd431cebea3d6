import FormulaSheet.Proofs.Command.Loading
import FormulaSheet.Proofs.Sheet.Dependents
/-!
Formulas that are evaluated without being entered. A formula that is entered under a label gets its
outcome from another pass, over one formula more and in an order of its own. If no formula refers to
the label, every other formula still means what it meant before, so the outcome is the one that the
recalculated sheet gives without the label.
-/

namespace FormulaSheet

namespace Sheet

theorem fill_size {s t : Sheet} {entries : List (Value × Value)}
    (filled : Spec.fill s entries = .ok t) : t.rows = s.rows ∧ t.columns = s.columns := by
  refine fill_keeps (p := fun t => t.rows = s.rows ∧ t.columns = s.columns) ?_ ⟨rfl, rfl⟩ filled
  intro t label slot u tokens found size
  have located := located_of_locate found
  exact ⟨located.rows.trans size.1, located.columns.trans size.2⟩

theorem not_reaches_of_unreferenced {s : Sheet} {k : String}
    (unreferenced : ∀ x, ¬ s.DependsOn x k) {d : String} (other : d ≠ k) :
    ¬ Relation.ReflTransGen s.DependsOn d k := by
  intro reached
  rcases Relation.ReflTransGen.cases_tail reached with same | ⟨x, _, last⟩
  · exact other same.symm
  · exact unreferenced x last

section Entered

variable {s u : Sheet} {k : String} {tokens : List Token} (stored : Stored k tokens s u)
  (noCircle : ∀ y, ¬ Relation.TransGen s.DependsOn y y) (apart : k ∉ tokens)
  (unreferenced : ∀ x, ¬ s.DependsOn x k)
include stored noCircle apart unreferenced

theorem Stored.acyclic : u.Acyclic k := by
  apply Acyclic.of_below
  intro d refers
  have mem : d ∈ tokens := stored.formula ▸ (dependsOn_iff.mp refers).1
  have other : d ≠ k := fun same => apart (same ▸ mem)
  have before : s.Acyclic d := fun y _ => noCircle y
  exact acyclic_of_others stored.elsewhere (not_reaches_of_unreferenced unreferenced other) before

/-- Among the formulas with the entered one, that one means what the others make of it. -/
theorem Stored.means (own : s.SelfLabelled) (marked : s.BlanksMarked) (nonempty : tokens ≠ []) :
    Means u.formula k
      (FormulaSheet.evaluate (s.recalculate.sheet.environment Label.isLabel) tokens).outcome := by
  have here := stored.formula
  have others : ∀ d ∈ tokens, d ≠ k := fun d hd same => apart (same ▸ hd)
  have below : ∀ d ∈ u.formula k, Label.isLabel d = true → u.formula d ≠ [] →
      Means u.formula d (s.recalculate.sheet.outcome d) := by
    intro d hd label filled
    have other := others d (here ▸ hd)
    rw [stored.elsewhere d other] at filled
    have before := means_recalculate own marked filled fun y _ => noCircle y
    exact means_of_others stored.elsewhere (not_reaches_of_unreferenced unreferenced other) before
  have same : ∀ d ∈ tokens, u.formula d = s.recalculate.sheet.formula d := by
    intro d hd
    rw [stored.elsewhere d (others d hd), formula_recalculate own]
  have agree : Environment.AgreeOn tokens (formulaEnvironment u.formula s.recalculate.sheet.outcome)
      (s.recalculate.sheet.environment Label.isLabel) := by
    have shown := environment_agreeOn_formula (blanksMarked_recalculate own marked) tokens
    intro d hd
    refine ⟨rfl, ?_⟩
    intro (label : Label.isLabel d = true)
    have read : (formulaEnvironment u.formula s.recalculate.sheet.outcome).read d =
        (formulaEnvironment s.recalculate.sheet.formula s.recalculate.sheet.outcome).read d := by
      simp only [formulaEnvironment, same d hd]
    rw [(shown d hd).2 label, Environment.resolve, Environment.resolve, read]
  have meaning := Means.intro k s.recalculate.sheet.outcome (here.symm ▸ nonempty) below
  rw [here, evaluate_congr agree] at meaning
  exact meaning

theorem Stored.outcome (own : s.SelfLabelled) (sound : s.Sound) (soundThere : u.Sound) :
    u.recalculate.sheet.outcome k =
      (FormulaSheet.evaluate (s.recalculate.sheet.environment Label.isLabel) tokens).outcome := by
  obtain ⟨c, hc, formula⟩ := stored.recalculate.here
  by_cases empty : tokens = []
  · obtain ⟨i, _, rfl⟩ := cell?_eq_some_iff.mp hc
    have blank := soundThere.recalculate i
    have unfilled := formula.trans empty
    have outcome : (u.recalculate.sheet.cellAt i).outcome = ⟨0.0, some .emptyFormula⟩ := by
      rw [Cell.outcome, blank.zero unfilled, blank.unfilled.mp unfilled]
    rw [outcome_of_cell? hc, outcome, empty]
    rfl
  · have here := stored.formula
    have meaning := means_recalculate stored.own (stored.marked sound.blanksMarked)
      (here.symm ▸ empty) (stored.acyclic noCircle apart unreferenced)
    exact meaning.unique
      (stored.means noCircle apart unreferenced own sound.blanksMarked empty)

end Entered

/-- Recalculating again does not change what a formula gives. -/
theorem evaluate_recalculate {s : Sheet} (own : s.SelfLabelled) (marked : s.BlanksMarked)
    (noCircle : ∀ y, ¬ Relation.TransGen s.DependsOn y y) (tokens : List Token) :
    FormulaSheet.evaluate (s.recalculate.sheet.recalculate.sheet.environment Label.isLabel) tokens =
      FormulaSheet.evaluate (s.recalculate.sheet.environment Label.isLabel) tokens := by
  have ownAfter := (recalculate_passed own).own
  have markedAfter := blanksMarked_recalculate own marked
  have formulas : s.recalculate.sheet.recalculate.sheet.formula = s.recalculate.sheet.formula :=
    funext (formula_recalculate ownAfter)
  have alike : ∀ d ∈ tokens, Label.isLabel d = true → s.recalculate.sheet.formula d ≠ [] →
      s.recalculate.sheet.recalculate.sheet.outcome d = s.recalculate.sheet.outcome d := by
    intro d _ _ filled
    have acyclic : s.Acyclic d := fun y _ => noCircle y
    have again := means_recalculate ownAfter markedAfter filled
      (acyclic.congr (funext (formula_recalculate own)))
    rw [formula_recalculate own] at filled
    rw [funext (formula_recalculate own)] at again
    exact again.unique (means_recalculate own marked filled acyclic)
  have agree := formulaEnvironment_agreeOn alike
  rw [evaluate_congr (environment_agreeOn_formula markedAfter tokens), ← evaluate_congr agree,
    ← formulas]
  exact evaluate_congr
    (environment_agreeOn_formula (blanksMarked_recalculate ownAfter markedAfter) tokens)

/-- Entering a formula under a label to which nothing refers gives what the formula gives on the
recalculated sheet. -/
theorem setFormula_unreferenced {s : Sheet} (own : s.SelfLabelled) (sound : s.Sound)
    (noCircle : ∀ y, ¬ Relation.TransGen s.DependsOn y y) {label k : String}
    (inside : s.key label = .ok k) {input : FormulaInput} {tokens : List Token}
    (readable : input.read = .ok tokens) (apart : k ∉ tokens)
    (unreferenced : ∀ x, ¬ s.DependsOn x k) :
    (s.setFormula label input).value =
      .ok (s.recalculate.sheet.evaluate Label.isLabel tokens).1 := by
  obtain ⟨slot, t, found, located⟩ := exists_locate inside
  obtain ⟨o, value, shows⟩ := storeFormula_shows own located tokens
  have stored := stored_modify own located tokens
  have soundThere : (t.modify slot (Cell.setFormula tokens)).Sound :=
    ((extends_locate found).sound sound).modify
      (((extends_locate found).sound sound slot).setFormula tokens)
  obtain ⟨c, hc, rfl⟩ := Option.map_eq_some_iff.mp shows
  have outcome := stored.outcome noCircle apart unreferenced own sound soundThere
  rw [setFormula_of_read found readable, value]
  exact congrArg Except.ok ((outcome_of_cell? hc).symm.trans outcome)

end Sheet

/-- On a sheet from a table whose formulas refer to each other in no circle, evaluating a formula
gives the same outcome as entering it, before or after a recalculation, under a label that neither
this formula nor any other refers to. -/
theorem evaluated_as_entered {entries : List (Value × Value)} {s : Sheet}
    (described : Sheet.ofSpec entries = .ok s)
    (noCircle : ∀ y, ¬ Relation.TransGen s.DependsOn y y) {text : String} {tokens : List Token}
    (readable : tokenize text = .ok tokens) {label k : String} (inside : s.key label = .ok k)
    (apart : k ∉ tokens) (unreferenced : ∀ x, ¬ s.DependsOn x k) :
    ∃ o, (s.recalculate.sheet.evaluate Label.isLabel tokens).1 = o ∧
      (s.setFormula label (.text text)).value = .ok o ∧
      (s.recalculate.sheet.setFormula label (.text text)).value = .ok o ∧
      ∀ (j : Journal) (path : String) (json : Bool),
        loadSheet j.files (Path.ofText path) Settings.defaults = .ok s →
        Request.runEvaluate j text (some path) json =
          (.printed
            (if json then
              [Json.text (.table ((.text "tokens", .list (tokens.map .text)) :: o.entries))]
            else Request.outcomeLines o), j) := by
  have own := Sheet.selfLabelled_ofSpec described
  have sound := Sheet.sound_ofSpec described
  have passed := Sheet.recalculate_passed own
  have formulas : s.recalculate.sheet.formula = s.formula :=
    funext (Sheet.formula_recalculate own)
  have depends := Sheet.dependsOn_congr formulas
  have read : (FormulaInput.text text).read = .ok tokens := readable
  refine ⟨_, rfl, ?_, ?_, ?_⟩
  · exact Sheet.setFormula_unreferenced own sound noCircle inside read apart unreferenced
  · have insideThere := (Sheet.key_congr passed.rows passed.columns label).trans inside
    rw [Sheet.setFormula_unreferenced passed.own sound.recalculate (depends ▸ noCircle)
      insideThere read apart (depends ▸ unreferenced)]
    have again := Sheet.evaluate_recalculate own sound.blanksMarked noCircle tokens
    exact congrArg (fun e => Except.ok e.outcome) again
  · intro j path json loaded
    obtain ⟨results, told, _⟩ :=
      Sheet.evaluateAll_passed own (Sheet.stored_of_mem_evaluationOrder own)
    have value : s.recalculate.value = .ok results := told
    have sheet : Request.sheetFor j (some path) = .ok s.recalculate.sheet := by
      simp only [Request.sheetFor, Request.loadFor, loaded, bind, Except.bind, value]
      rfl
    rw [Request.runEvaluate, readable]
    simp only [sheet]

/-- A sheet file with two formulas. -/
def twoEditsFile : Journal where
  files := ⟨[(["s"], .file (Text.encodeUtf8 "cells:\n  A1: =B1 * 2\n  b1: 1 + 2\n"))]⟩

/-- Whether a document is the table of the two formulas. -/
def isTwoEdits : Except Yaml.DocumentError Value → Bool
  | .ok (.table [(.text "cells",
      .table [(.text "A1", .text "=B1 * 2"), (.text "b1", .text "1 + 2")])]) => true
  | _ => false

theorem twoEditsFile_table : loadTable twoEditsFile.files (Path.ofText "s") =
    .ok [(.text "cells", .table (Sheet.twoEdits.map Sheet.Edit.entry))] := by
  have file : twoEditsFile.files.read (Path.ofText "s") =
      .ok (Text.encodeUtf8 "cells:\n  A1: =B1 * 2\n  b1: 1 + 2\n") := by
    simp [path_s, twoEditsFile, Files.read, Files.target, Files.follow, Files.node?, Path.base,
      Path.isBase]
  have read : isTwoEdits (Yaml.read "cells:\n  A1: =B1 * 2\n  b1: 1 + 2\n".toList) = true := by
    decide +kernel
  unfold isTwoEdits at read
  split at read
  · rename_i document
    exact loadTable_of_ascii file (by decide +kernel) document
  · cases read

/-- A division by zero, evaluated on the sheet of a file and entered beside its cells. -/
theorem evaluated_as_entered_in_file :
    ∃ s entries, Sheet.ofSpec entries = .ok s ∧ (∀ y, ¬ Relation.TransGen s.DependsOn y y) ∧
      tokenize "=A1 / 0" = .ok ["A1", "/", "0"] ∧ s.key "c7" = .ok "C7" ∧
      "C7" ∉ ["A1", "/", "0"] ∧ (∀ x, ¬ s.DependsOn x "C7") ∧
      loadSheet twoEditsFile.files (Path.ofText "s") Settings.defaults = .ok s ∧
      ∃ o, (s.setFormula "c7" (.text "=A1 / 0")).value = .ok o ∧
        Request.runEvaluate twoEditsFile "=A1 / 0" (some "s") false =
          (.printed (Request.outcomeLines o), twoEditsFile) := by
  have new : Sheet.empty? 100 26 = some .standard := rfl
  have steady := Sheet.steady_empty? new
  obtain ⟨s, filled, holds, _⟩ :=
    Sheet.fill_filled steady.own steady.sound Sheet.suits_twoEdits
  obtain ⟨given, givenRows, givenColumns, load⟩ :=
    loadSheet_eq twoEditsFile.files (Path.ofText "s") Settings.defaults
  have described : Sheet.ofSpec
      (given.completed [(.text "cells", .table (Sheet.twoEdits.map Sheet.Edit.entry))]) =
        .ok s := by
    obtain ⟨rows, columns, cells⟩ :=
      given.find?_completed [(.text "cells", .table (Sheet.twoEdits.map Sheet.Edit.entry))]
    refine Sheet.ofSpec_of_describes ?_ new filled
    constructor
    · rw [Spec.dimension, rows, givenRows]
      rfl
    · rw [Spec.dimension, columns, givenColumns]
      rfl
    · exact cells
  have loaded : loadSheet twoEditsFile.files (Path.ofText "s") Settings.defaults = .ok s := by
    rw [load, twoEditsFile_table]
    simp only [bind, Except.bind, described]
    rfl
  have refers := fun x d => holds.refers (Sheet.formula_empty? new) (x := x) (d := d)
  have noCircle : ∀ y, ¬ Relation.TransGen s.DependsOn y y := fun y circle =>
    Sheet.noCircle_twoEdits y (Relation.TransGen.mono refers y y circle)
  have readable : tokenize "=A1 / 0" = .ok ["A1", "/", "0"] := by decide +kernel
  have inside : s.key "c7" = .ok "C7" := by
    obtain ⟨rows, columns⟩ := Sheet.fill_size filled
    rw [Sheet.key_congr rows columns]
    decide +kernel
  have unreferenced : ∀ x, ¬ s.DependsOn x "C7" := by
    intro x depends
    exact absurd (Sheet.refers_twoEdits (refers x "C7" depends)).2 (by decide)
  obtain ⟨o, _, entered, _, evaluated⟩ :=
    evaluated_as_entered described noCircle readable inside (by decide) unreferenced
  exact ⟨s, _, described, noCircle, readable, inside, by decide, unreferenced, loaded, o, entered,
    evaluated twoEditsFile "s" false loaded⟩

end FormulaSheet
