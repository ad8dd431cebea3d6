import FormulaSheet.Proofs.Sheet.Entry
import FormulaSheet.Journal.Event
/-!
What notices say, told apart from how they are made, and the notices of a pass: an opening one with
the number of formulas, one for each formula in evaluation order, and a closing one that counts
those that told of a fault. Numbers that are not finite stand in notices by name, so every notice of
a pass can be written.
-/

namespace FormulaSheet

namespace Notice

/-- A result as it stands in a notice. -/
def resultValue (x : Float) : Value :=
  if x.isNaN then .text "NaN"
  else if x.isInf then .text (if x < 0.0 then "-Infinity" else "Infinity")
  else .number x

/-- The notice is about the cell of a label with a formula, and what came of evaluating it. A fault
stands in it by its name, unless the name is empty. -/
structure Tells (n : Notice) (label : String) (formula : List Token) (o : Outcome) : Prop where
  label : Value.find? "label" n.context = some (.text label)
  formula : Value.find? "formula" n.context = some (.list (formula.map .text))
  result : Value.find? "result" n.context = some (resultValue o.result)
  evaluated : o.fault = none →
    n.kind = .cellEvaluated ∧ n.level = .info ∧ Value.find? "error" n.context = none
  failed : ∀ fault, o.fault = some fault → n.kind = .cellError ∧ n.level = .warning ∧
    (fault.name ≠ "" → Value.find? "error" n.context = some (.text fault.name))

structure Opens (n : Notice) (cells : Nat) : Prop where
  kind : n.kind = .recalcStarted ∧ n.level = .info
  context : n.context = [(.text "cells", .whole cells)]

structure Closes (n : Notice) (cells errors : Nat) : Prop where
  kind : n.kind = .recalcCompleted ∧ n.level = .info
  context : n.context = [(.text "cells", .whole cells), (.text "errors", .whole errors)]

structure Rejects (n : Notice) (label text : String) : Prop where
  kind : n.kind = .formulaRejected ∧ n.level = .warning
  context : n.context = [(.text "label", .text label), (.text "text", .text text)]

/-- Nothing in the notice keeps it from being written. -/
def Finite (n : Notice) : Prop := Json.finiteEntries n.context = true

theorem recordedNumber_eq (x : Float) : recordedNumber x = resultValue x := by
  unfold recordedNumber resultValue Json.numberChars
  by_cases undefined : x.isNaN = true
  · simp only [undefined, Bool.true_or, if_true, String.ofList_toList]
  · rw [Bool.not_eq_true] at undefined
    by_cases infinite : x.isInf = true
    · simp only [undefined, infinite, Bool.false_or, if_true, Bool.false_eq_true, if_false]
      split <;> simp only [String.ofList_toList]
    · simp only [undefined, infinite, Bool.or_self, Bool.false_eq_true, if_false]

theorem finite_resultValue (x : Float) : Json.isFinite (resultValue x) = true := by
  unfold resultValue
  split
  · simp [Json.isFinite]
  · split
    · simp [Json.isFinite]
    · simp_all [Json.isFinite]

theorem finite_texts (ts : List Token) : Json.finiteItems (ts.map .text) = true := by
  induction ts with
  | nil => simp [Json.finiteItems]
  | cons t rest ih => simp [Json.finiteItems, Json.isFinite, ih]

theorem tells_ofOutcome (label : String) (formula : List Token) (o : Outcome) :
    (ofOutcome label formula o).Tells label formula o := by
  unfold ofOutcome
  cases hf : o.fault with
  | none =>
    constructor <;>
      simp [ofCell, Value.find?, Value.sameKey, formulaValue, recordedNumber_eq, hf]
  | some fault =>
    constructor <;>
      simp [ofCell, Value.find?, Value.sameKey, formulaValue, recordedNumber_eq, hf]
    intro named
    simp [named, Value.find?, Value.sameKey]

theorem finite_ofOutcome (label : String) (formula : List Token) (o : Outcome) :
    (ofOutcome label formula o).Finite := by
  unfold ofOutcome Finite
  cases o.fault with
  | none =>
    simp [ofCell, Json.finiteEntries, Json.isFinite, formulaValue, recordedNumber_eq, finite_texts,
      finite_resultValue]
  | some fault =>
    by_cases named : fault.name = "" <;>
      simp [ofCell, Json.finiteEntries, Json.isFinite, formulaValue, recordedNumber_eq,
        finite_texts, finite_resultValue, named]

theorem rejects_rejected (label text : String) (e : FormulaError) :
    (rejected label text e).Rejects label text :=
  ⟨⟨rfl, rfl⟩, rfl⟩

theorem isError_ofOutcome (label : String) (formula : List Token) (o : Outcome) :
    decide ((ofOutcome label formula o).kind = .cellError) = !o.isOk := by
  unfold ofOutcome Outcome.isOk
  cases o.fault <;> simp [ofCell]

end Notice

namespace Sheet

/-- The notices of a pass over a sheet that gave the results and left the second sheet. -/
structure PassNotices (s t : Sheet) (results : List (String × Outcome)) (ns : List Notice) :
    Prop where
  labels : results.map (·.1) = s.evaluationOrder
  stored : ∀ r ∈ results, (t.cell? r.1).map Cell.outcome = some r.2
  notices : ∃ opening cells closing, ns = opening :: (cells ++ [closing]) ∧
    opening.Opens s.evaluationOrder.length ∧
    List.Forall₂ (fun r n => Notice.Tells n r.1 (s.formula r.1) r.2) results cells ∧
    closing.Closes s.evaluationOrder.length (cells.countP (·.kind = .cellError))
  finite : ∀ n ∈ ns, n.Finite

theorem evaluateSlot_notices {s : Sheet} (own : s.SelfLabelled) {l : String} {slot : Nat}
    (h : s.keys.lookup l = some slot) :
    (s.evaluateSlot slot).notices =
      [.ofOutcome l (s.formula l) (s.evaluateSlot slot).value] := by
  have cell : s.cell? l = some (s.cellAt slot) := cell?_eq_some_iff.mpr ⟨slot, h, rfl⟩
  have notices : (s.evaluateSlot slot).notices =
      [.ofOutcome (s.cellAt slot).label (s.cellAt slot).formula (s.evaluateSlot slot).value] := rfl
  rw [notices, own l _ cell, formula_of_cell? cell]

/-- A pass notes each label in turn, with the formula that the label had from the beginning. -/
theorem evaluateAll_notices {labels : List String} {s : Sheet} (own : s.SelfLabelled)
    (stored : ∀ l ∈ labels, ∃ c, s.cell? l = some c) {results : List (String × Outcome)}
    (told : (s.evaluateAll labels).value = .ok results) :
    (s.evaluateAll labels).notices =
      results.map fun r => .ofOutcome r.1 (s.formula r.1) r.2 := by
  induction labels generalizing s results with
  | nil =>
    cases told
    rfl
  | cons l rest ih =>
    obtain ⟨c, hc⟩ := stored l List.mem_cons_self
    obtain ⟨slot, hs, _⟩ := cell?_eq_some_iff.mp hc
    obtain ⟨_, _, first⟩ := evaluateSlot_passed own hs
    have later := stored_of_passed first fun l' hl => stored l' (List.mem_cons_of_mem l hl)
    obtain ⟨others, value, _⟩ := evaluateAll_passed first.own later
    have notices : (s.evaluateAll (l :: rest)).notices = (s.evaluateSlot slot).notices ++
        ((s.evaluateSlot slot).sheet.evaluateAll rest).notices := by
      rw [evaluateAll, evaluateCell_of_lookup hs]
      rfl
    rw [(evaluateAll_cons hs rest).1, value] at told
    cases told
    rw [notices, evaluateSlot_notices own hs, ih first.own later value, List.map_cons,
      List.singleton_append]
    refine congrArg (List.cons _) (List.map_congr_left ?_)
    intro r _
    rw [first.formula fun l' same => ⟨c, by rw [List.mem_singleton.mp same, hc]⟩]

theorem recalculate_notices {s : Sheet} (own : s.SelfLabelled) :
    ∃ results, s.recalculate.value = .ok results ∧
      s.PassNotices s.recalculate.sheet results s.recalculate.notices := by
  have stored := stored_of_mem_evaluationOrder own
  obtain ⟨results, told, labels, _⟩ := evaluateAll_passed own stored
  have cells := evaluateAll_notices own stored told
  have length : results.length = s.evaluationOrder.length := by
    rw [← labels, List.length_map]
  have notices : s.recalculate.notices = .started s.evaluationOrder.length ::
      ((results.map fun r => .ofOutcome r.1 (s.formula r.1) r.2) ++
        [.completed results.length (results.filter fun r => !r.2.isOk).length]) := by
    have closing : passClosing (s.evaluateAll s.evaluationOrder).value =
        [.completed results.length (results.filter fun r => !r.2.isOk).length] := by
      rw [told]
      rfl
    rw [← cells, ← closing]
    rfl
  have errors : (results.map fun r => Notice.ofOutcome r.1 (s.formula r.1) r.2).countP
      (·.kind = .cellError) = (results.filter fun r => !r.2.isOk).length := by
    rw [List.countP_map, ← List.countP_eq_length_filter]
    apply List.countP_congr
    intro r _
    rw [Function.comp_apply, Notice.isError_ofOutcome]
  refine ⟨results, told, labels, evaluateAll_kept own stored s.nodup_evaluationOrder told, ?_, ?_⟩
  · refine ⟨_, _, _, notices, ⟨⟨rfl, rfl⟩, rfl⟩, ?_, ?_⟩
    · rw [List.forall₂_map_right_iff]
      exact List.forall₂_same.mpr fun r _ => Notice.tells_ofOutcome _ _ _
    · rw [errors, length]
      exact ⟨⟨rfl, rfl⟩, rfl⟩
  · rw [notices]
    intro n hn
    rcases List.mem_cons.mp hn with rfl | hn
    · simp [Notice.Finite, Notice.started, Json.finiteEntries, Json.isFinite]
    · rcases List.mem_append.mp hn with hn | hn
      · obtain ⟨r, _, rfl⟩ := List.mem_map.mp hn
        exact Notice.finite_ofOutcome _ _ _
      · rw [List.mem_singleton.mp hn]
        simp [Notice.Finite, Notice.completed, Json.finiteEntries, Json.isFinite]

end Sheet

end FormulaSheet
