import FormulaSheet.Proofs.Formula.Locality
import FormulaSheet.Proofs.Sheet.Order
import FormulaSheet.Sheet.Calculation
/-!
Passes over a sheet whose cells are stored under their own labels. Evaluating a cell changes value
and fault of that cell and may add blank cells elsewhere. A pass over stored labels therefore runs
to its end, leaves every formula as it was and every cell aside from its labels too, and where no
label comes twice each cell ends with the outcome that the pass tells.
-/

namespace FormulaSheet.Sheet

/-- The second sheet is the first one after outcomes were stored on cells of the labels. -/
structure Passed (labels : List String) (s t : Sheet) : Prop where
  rows : t.rows = s.rows
  columns : t.columns = s.columns
  own : t.SelfLabelled
  stored : ∀ k c, s.cell? k = some c → ∃ o, t.cell? k = some (c.setOutcome o)
  aside : ∀ k, k ∉ labels → BlankOrSame s t k

theorem setOutcome_setOutcome (c : Cell) (o o' : Outcome) :
    (c.setOutcome o).setOutcome o' = c.setOutcome o' := rfl

theorem Passed.refl {s : Sheet} (own : s.SelfLabelled) : Passed [] s s :=
  ⟨rfl, rfl, own, fun _ c hc => ⟨c.outcome, hc⟩, fun _ _ => .inl rfl⟩

theorem Passed.trans {labels more : List String} {s t u : Sheet} (h : Passed labels s t)
    (h' : Passed more t u) : Passed (labels ++ more) s u := by
  refine ⟨h'.rows.trans h.rows, h'.columns.trans h.columns, h'.own, ?_, ?_⟩
  · intro k c hc
    obtain ⟨o, ho⟩ := h.stored k c hc
    obtain ⟨o', ho'⟩ := h'.stored k _ ho
    exact ⟨o', ho'⟩
  · intro k hk
    rw [List.mem_append, not_or] at hk
    exact (h.aside k hk.1).trans (h'.aside k hk.2)

theorem evaluateSlot_passed {s : Sheet} (own : s.SelfLabelled) {l : String} {slot : Nat}
    (h : s.keys.lookup l = some slot) :
    (s.evaluateSlot slot).value =
        (FormulaSheet.evaluate (s.environment Label.isLabel) (s.cellAt slot).formula).outcome ∧
      (s.evaluateSlot slot).sheet.cell? l =
        some ((s.cellAt slot).setOutcome (s.evaluateSlot slot).value) ∧
      Passed [l] s (s.evaluateSlot slot).sheet := by
  have cell : s.cell? l = some (s.cellAt slot) := cell?_eq_some_iff.mpr ⟨slot, h, rfl⟩
  have grown := grows_touch s
    (FormulaSheet.evaluate (s.environment Label.isLabel) (s.cellAt slot).formula).labels
  have ownGrown := grown.selfLabelled own
  have slotGrown := grown.slots l slot h
  have cells := fun f => cell?_modify ownGrown slotGrown f
  have target : (s.evaluateSlot slot).sheet.cell? l =
      some ((s.cellAt slot).setOutcome (s.evaluateSlot slot).value) := by
    refine (cells _ l).trans ?_
    rw [if_pos rfl, (grown.cells l).cell? cell]
    rfl
  refine ⟨rfl, target, grown.rows, grown.columns, ownGrown.modify slotGrown fun _ => rfl, ?_, ?_⟩
  · intro k c hc
    by_cases hk : k = l
    · subst hk
      rw [cell] at hc
      cases hc
      exact ⟨_, target⟩
    · refine ⟨c.outcome, (cells _ k).trans ?_⟩
      rw [if_neg hk]
      exact (grown.cells k).cell? hc
  · intro k hk
    rw [List.mem_singleton] at hk
    have same := (cells (fun c => c.setOutcome (s.evaluateSlot slot).value) k).trans (if_neg hk)
    rcases grown.cells k with before | ⟨none, blank⟩
    · exact .inl (same.trans before)
    · exact .inr ⟨none, same.trans blank⟩

theorem evaluateCell_of_lookup {s : Sheet} {l : String} {slot : Nat}
    (h : s.keys.lookup l = some slot) : s.evaluateCell l = .ok (s.evaluateSlot slot) := by
  rw [evaluateCell, locate_of_lookup (key_of_isKey (isKey_of_lookup h)) h]
  rfl

/-! A label keeps its slot. -/

theorem evaluateSlot_slots (s : Sheet) (slot : Nat) {k : String} {i : Nat}
    (h : s.keys.lookup k = some i) : (s.evaluateSlot slot).sheet.keys.lookup k = some i :=
  (grows_touch s _).slots k i h

theorem evaluateAll_slots (labels : List String) (s : Sheet) {k : String} {i : Nat}
    (h : s.keys.lookup k = some i) : (s.evaluateAll labels).sheet.keys.lookup k = some i := by
  induction labels generalizing s with
  | nil => exact h
  | cons l rest ih =>
    rw [evaluateAll, evaluateCell]
    cases located : s.locate l with
    | error e => exact h
    | ok found =>
      have there := (located_of_locate located).slots k i h
      exact ih _ (evaluateSlot_slots found.2 found.1 there)

/-! Passes. -/

theorem stored_of_passed {labels more : List String} {s t : Sheet} (h : Passed labels s t)
    (stored : ∀ l ∈ more, ∃ c, s.cell? l = some c) : ∀ l ∈ more, ∃ c, t.cell? l = some c := by
  intro l hl
  obtain ⟨c, hc⟩ := stored l hl
  obtain ⟨o, ho⟩ := h.stored l c hc
  exact ⟨_, ho⟩

theorem evaluateAll_cons {s : Sheet} {l : String} {slot : Nat} (h : s.keys.lookup l = some slot)
    (rest : List String) :
    (s.evaluateAll (l :: rest)).value =
        ((s.evaluateSlot slot).sheet.evaluateAll rest).value.map
          ((l, (s.evaluateSlot slot).value) :: ·) ∧
      (s.evaluateAll (l :: rest)).sheet =
        ((s.evaluateSlot slot).sheet.evaluateAll rest).sheet := by
  rw [evaluateAll, evaluateCell_of_lookup h]
  exact ⟨rfl, rfl⟩

/-- A pass over stored labels tells of each label in turn. -/
theorem evaluateAll_passed {labels : List String} {s : Sheet} (own : s.SelfLabelled)
    (stored : ∀ l ∈ labels, ∃ c, s.cell? l = some c) :
    ∃ results, (s.evaluateAll labels).value = .ok results ∧ results.map (·.1) = labels ∧
      Passed labels s (s.evaluateAll labels).sheet := by
  induction labels generalizing s with
  | nil => exact ⟨[], rfl, rfl, .refl own⟩
  | cons l rest ih =>
    obtain ⟨c, hc⟩ := stored l List.mem_cons_self
    obtain ⟨slot, hs, _⟩ := cell?_eq_some_iff.mp hc
    obtain ⟨_, _, first⟩ := evaluateSlot_passed own hs
    have later := stored_of_passed first fun l' hl => stored l' (List.mem_cons_of_mem l hl)
    obtain ⟨results, value, labels, passed⟩ := ih first.own later
    obtain ⟨values, sheet⟩ := evaluateAll_cons hs rest
    refine ⟨(l, (s.evaluateSlot slot).value) :: results, ?_, ?_, ?_⟩
    · rw [values, value]
      rfl
    · rw [List.map_cons, labels]
    · rw [sheet]
      exact first.trans passed

theorem Passed.cell?_of_notMem {labels : List String} {s t : Sheet} (h : Passed labels s t)
    {k : String} (hk : k ∉ labels) {c : Cell} (hc : s.cell? k = some c) : t.cell? k = some c :=
  (h.aside k hk).cell? hc

/-- No later evaluation of a pass changes what an earlier one left, if no label comes twice. -/
theorem evaluateAll_kept {labels : List String} {s : Sheet} (own : s.SelfLabelled)
    (stored : ∀ l ∈ labels, ∃ c, s.cell? l = some c) (once : labels.Nodup)
    {results : List (String × Outcome)} (told : (s.evaluateAll labels).value = .ok results) :
    ∀ r ∈ results, ((s.evaluateAll labels).sheet.cell? r.1).map Cell.outcome = some r.2 := by
  induction labels generalizing s results with
  | nil =>
    cases told
    intro r hr
    cases hr
  | cons l rest ih =>
    obtain ⟨c, hc⟩ := stored l List.mem_cons_self
    obtain ⟨slot, hs, _⟩ := cell?_eq_some_iff.mp hc
    obtain ⟨_, cell, first⟩ := evaluateSlot_passed own hs
    have later := stored_of_passed first fun l' hl => stored l' (List.mem_cons_of_mem l hl)
    obtain ⟨others, value, _, passed⟩ := evaluateAll_passed first.own later
    obtain ⟨values, sheet⟩ := evaluateAll_cons hs rest
    obtain ⟨fresh, onceMore⟩ := List.nodup_cons.mp once
    rw [values, value] at told
    cases told
    rw [sheet]
    intro r hr
    rcases List.mem_cons.mp hr with rfl | hr
    · rw [passed.cell?_of_notMem fresh cell]
      rfl
    · exact ih first.own later onceMore value r hr

theorem environment_agreeOn {s t : Sheet} {tokens : List Token} (rows : t.rows = s.rows)
    (columns : t.columns = s.columns)
    (alike : ∀ d ∈ tokens, Label.isLabel d = true → BlankOrSame s t d) :
    Environment.AgreeOn tokens (t.environment Label.isLabel) (s.environment Label.isLabel) := by
  intro d hd
  refine ⟨rfl, ?_⟩
  intro label
  have cell : BlankOrSame s t (Text.upper d) :=
    (Label.upper_of_isLabel label).symm ▸ alike d hd label
  unfold Environment.resolve
  rw [read_environment_congr rows columns cell]

/-- A cell whose references come before it in the pass ends with the outcome that its formula has in
the sheet at the end. -/
theorem evaluateAll_settled {labels : List String} {s : Sheet} (own : s.SelfLabelled)
    (stored : ∀ l ∈ labels, ∃ c, s.cell? l = some c) (once : labels.Nodup) {x : String}
    (hx : x ∈ labels) {c : Cell} (hc : s.cell? x = some c)
    (before : ∀ d ∈ c.formula, Label.isLabel d = true → d ∈ labels →
      labels.idxOf d < labels.idxOf x) :
    (s.evaluateAll labels).sheet.cell? x =
      some (c.setOutcome (FormulaSheet.evaluate
        ((s.evaluateAll labels).sheet.environment Label.isLabel) c.formula).outcome) := by
  induction labels generalizing s c with
  | nil => cases hx
  | cons l rest ih =>
    obtain ⟨e, he⟩ := stored l List.mem_cons_self
    obtain ⟨slot, hs, same⟩ := cell?_eq_some_iff.mp he
    obtain ⟨value, cell, first⟩ := evaluateSlot_passed own hs
    have later := stored_of_passed first fun l' hl => stored l' (List.mem_cons_of_mem l hl)
    obtain ⟨_, _, _, passed⟩ := evaluateAll_passed first.own later
    obtain ⟨fresh, onceMore⟩ := List.nodup_cons.mp once
    rw [(evaluateAll_cons hs rest).2]
    by_cases now : x = l
    · -- nothing that the formula refers to is evaluated from here on
      subst now
      have all := first.trans passed
      have apart : ∀ d ∈ c.formula, Label.isLabel d = true →
          BlankOrSame s ((s.evaluateSlot slot).sheet.evaluateAll rest).sheet d := by
        intro d hd label
        refine all.aside d ?_
        intro mem
        have earlier := before d hd label mem
        rw [List.idxOf_cons_self] at earlier
        exact Nat.not_lt_zero _ earlier
      have agree := environment_agreeOn all.rows all.columns apart
      rw [he] at hc
      cases hc
      rw [passed.cell?_of_notMem fresh cell, value, evaluate_congr agree, same]
    · have mem : x ∈ rest := (List.mem_cons.mp hx).resolve_left now
      obtain ⟨o, ho⟩ := first.stored x c hc
      have earlier : ∀ d ∈ (c.setOutcome o).formula, Label.isLabel d = true → d ∈ rest →
          rest.idxOf d < rest.idxOf x := by
        intro d hd label hdr
        have distinct : l ≠ d := by
          rintro rfl
          exact fresh hdr
        have lt := before d hd label (List.mem_cons_of_mem l hdr)
        rw [List.idxOf_cons_ne _ distinct, List.idxOf_cons_ne _ (Ne.symm now)] at lt
        exact Nat.lt_of_succ_lt_succ lt
      have settled := ih first.own later onceMore mem ho earlier
      rw [setOutcome_setOutcome] at settled
      exact settled

/-! The pass over all formulas. -/

theorem stored_of_mem_evaluationOrder {s : Sheet} (own : s.SelfLabelled) :
    ∀ l ∈ s.evaluationOrder, ∃ c, s.cell? l = some c := by
  intro l hl
  obtain ⟨c, hc, _⟩ := (mem_evaluationOrder_iff own).mp hl
  exact ⟨c, hc⟩

theorem recalculate_passed {s : Sheet} (own : s.SelfLabelled) :
    Passed s.evaluationOrder s s.recalculate.sheet := by
  obtain ⟨_, _, _, passed⟩ := evaluateAll_passed own (stored_of_mem_evaluationOrder own)
  exact passed

/-- Every formula is evaluated once, on circles too. The search for the order comes to its end and
finds each label with a formula once; the pass tells of these labels in this order, and what it
tells of a label is on its cell afterwards. -/
theorem each_formula_once {s : Sheet} (own : s.SelfLabelled) :
    Search.Ends s.search s.search.run ∧
      s.evaluationOrder = s.search.run.left.filter s.hasFormula ∧
      s.evaluationOrder.Perm s.labelsWithFormulas ∧ s.evaluationOrder.Nodup ∧
      (∀ l, l ∈ s.evaluationOrder ↔ ∃ c, s.cell? l = some c ∧ c.isFilled = true) ∧
      ∃ results, s.recalculate.value = .ok results ∧
        results.map (·.1) = s.evaluationOrder ∧
        ∀ r ∈ results, (s.recalculate.sheet.cell? r.1).map Cell.outcome = some r.2 := by
  have stored := stored_of_mem_evaluationOrder own
  obtain ⟨results, told, labels, _⟩ := evaluateAll_passed own stored
  refine ⟨Search.ends_run s.search, rfl, evaluationOrder_perm own, s.nodup_evaluationOrder,
    fun l => mem_evaluationOrder_iff own, results, told, labels, ?_⟩
  exact evaluateAll_kept own stored s.nodup_evaluationOrder told

theorem each_formula_once_on_circle :
    circle.SelfLabelled ∧ circle.evaluationOrder.Perm circle.labelsWithFormulas ∧
      ∃ results, circle.recalculate.value = .ok results ∧
        results.map (·.1) = circle.evaluationOrder ∧
        ∀ r ∈ results, (circle.recalculate.sheet.cell? r.1).map Cell.outcome = some r.2 := by
  obtain ⟨_, _, perm, _, _, results⟩ := each_formula_once circle_selfLabelled
  exact ⟨circle_selfLabelled, perm, results⟩

end FormulaSheet.Sheet
