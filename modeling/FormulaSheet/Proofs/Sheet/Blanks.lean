import FormulaSheet.Proofs.Sheet.Sorting
/-!
Blank cells are seen by no calculation. Lookups leave them behind all over a sheet, but a cell that
was never filled answers to references as a label without a cell does, it leads the search for the
order nowhere, and it is no root of it. So sheets that differ in blank cells alone give the same
outcomes, and go on differing in nothing else. They give them in the same order if cells that share
a position came into being in the same order, which cells do that share none.
-/

namespace FormulaSheet.Sheet

/-- The sheets have the same cells, but for blank ones that only one of them has. -/
structure SameButBlanks (s t : Sheet) : Prop where
  rows : t.rows = s.rows
  columns : t.columns = s.columns
  cells : ∀ k, BlankOrSame s t k ∨ BlankOrSame t s k

/-- Where cells with formulas share a position, they came into being in the same order. -/
def SameTies (s t : Sheet) : Prop := ∀ p, atPosition p t.filledKeys = atPosition p s.filledKeys

/-- The cell of a key as a reference sees it. -/
def shown (s : Sheet) (k : String) : Cell := (s.cell? k).getD (.blank k)

theorem shown_of_cell? {s : Sheet} {k : String} {c : Cell} (h : s.cell? k = some c) :
    s.shown k = c := by
  rw [shown, h]
  rfl

theorem BlankOrSame.shown {s t : Sheet} {k : String} (h : BlankOrSame s t k) :
    t.shown k = s.shown k := by
  rcases h with same | ⟨none, blank⟩
  · rw [Sheet.shown, Sheet.shown, same]
  · rw [shown_of_cell? blank, Sheet.shown, none]
    rfl

theorem shown_eq_iff {s t : Sheet} {k : String} :
    t.shown k = s.shown k ↔ BlankOrSame s t k ∨ BlankOrSame t s k := by
  constructor
  · intro h
    unfold BlankOrSame
    cases hs : s.cell? k with
    | none =>
      cases ht : t.cell? k with
      | none => exact .inl (.inl rfl)
      | some c =>
        rw [shown_of_cell? ht, shown, hs] at h
        exact .inl (.inr ⟨rfl, congrArg some h⟩)
    | some c =>
      cases ht : t.cell? k with
      | none =>
        rw [shown_of_cell? hs, shown, ht] at h
        exact .inr (.inr ⟨rfl, congrArg some h.symm⟩)
      | some c' =>
        rw [shown_of_cell? hs, shown_of_cell? ht] at h
        exact .inl (.inl (congrArg some h))
  · rintro (h | h)
    · exact h.shown
    · exact h.shown.symm

theorem formula_eq_shown (s : Sheet) (k : String) : s.formula k = (s.shown k).formula := by
  rw [formula, shown]
  cases s.cell? k <;> rfl

theorem references_eq_shown (s : Sheet) (label : String) :
    s.references label = (s.shown (Text.upper label)).dependencies := by
  rw [references, find?, shown]
  cases s.cell? (Text.upper label) <;> rfl

theorem hasFormula_eq_shown (s : Sheet) (label : String) :
    s.hasFormula label = (s.shown (Text.upper label)).isFilled := by
  rw [hasFormula, find?, shown]
  cases s.cell? (Text.upper label) <;> rfl

theorem selfLabelled_iff {s : Sheet} : s.SelfLabelled ↔ ∀ k, (s.shown k).label = k := by
  constructor
  · intro own k
    cases hc : s.cell? k with
    | none =>
      rw [shown, hc]
      rfl
    | some c =>
      rw [shown_of_cell? hc]
      exact own k c hc
  · intro shown k c hc
    rw [← shown_of_cell? hc]
    exact shown k

namespace SameButBlanks

variable {s t : Sheet}

theorem shown (same : SameButBlanks s t) : t.shown = s.shown :=
  funext fun k => shown_eq_iff.mpr (same.cells k)

theorem formula (same : SameButBlanks s t) : t.formula = s.formula := by
  funext k
  rw [formula_eq_shown, formula_eq_shown, same.shown]

theorem environment (same : SameButBlanks s t) (isLabel : Token → Bool) :
    t.environment isLabel = s.environment isLabel := by
  apply Environment.ext
  · rfl
  · funext label
    rcases same.cells (Text.upper label) with here | there
    · exact read_environment_congr same.rows same.columns here isLabel
    · exact (read_environment_congr same.rows.symm same.columns.symm there isLabel).symm

theorem own (same : SameButBlanks s t) (own : s.SelfLabelled) : t.SelfLabelled := by
  rw [selfLabelled_iff] at own ⊢
  rw [same.shown]
  exact own

theorem labelsWithFormulas (same : SameButBlanks s t) (own : s.SelfLabelled)
    (ties : SameTies s t) : t.labelsWithFormulas = s.labelsWithFormulas := by
  apply (sorted_labelsWithFormulas own).eq_of_atPosition
  · exact sorted_labelsWithFormulas (same.own own)
  · intro p
    rw [atPosition_labelsWithFormulas (same.own own), atPosition_labelsWithFormulas own, ties]

theorem evaluationOrder (same : SameButBlanks s t) (own : s.SelfLabelled) (ties : SameTies s t) :
    t.evaluationOrder = s.evaluationOrder := by
  have next : t.graph.next = s.graph.next := by
    funext label
    change t.references label = s.references label
    rw [references_eq_shown, references_eq_shown, same.shown]
  have alike : Search.Alike s.search t.search :=
    ⟨same.labelsWithFormulas own ties, rfl, rfl, rfl⟩
  have filled : t.hasFormula = s.hasFormula := by
    funext label
    rw [hasFormula_eq_shown, hasFormula_eq_shown, same.shown]
  rw [Sheet.evaluationOrder, Sheet.evaluationOrder, (alike.run next).left, filled]

end SameButBlanks

/-! New keys lead to blank cells, so the keys of formulas stay as they are. -/

theorem keys_evaluateSlot (s : Sheet) (slot : Nat) :
    ∃ new, (s.evaluateSlot slot).sheet.keys.map (·.1) = s.keys.map (·.1) ++ new :=
  s.keys_touch (FormulaSheet.evaluate (s.environment Label.isLabel) (s.cellAt slot).formula).labels

theorem filledKeys_of_keys {s t : Sheet} (formula : t.formula = s.formula)
    (keys : ∃ new, t.keys.map (·.1) = s.keys.map (·.1) ++ new) :
    t.filledKeys = s.filledKeys := by
  obtain ⟨new, keys⟩ := keys
  have apart := t.distinct
  rw [keys, List.nodup_append] at apart
  have blank : new.filter (fun k => !(s.formula k).isEmpty) = [] := by
    rw [List.filter_eq_nil_iff]
    intro k hk
    have fresh : k ∉ s.keys.map (·.1) := fun old => apart.2.2 k old k hk rfl
    rw [Sheet.formula, cell?_of_notMem fresh]
    decide
  rw [filledKeys, filledKeys, keys, formula, List.filter_append, blank, List.append_nil]

theorem formula_evaluateSlot {s : Sheet} (own : s.SelfLabelled) {l : String} {slot : Nat}
    (h : s.keys.lookup l = some slot) : (s.evaluateSlot slot).sheet.formula = s.formula := by
  funext x
  apply (evaluateSlot_passed own h).2.2.formula
  intro l' hl
  rw [List.mem_singleton.mp hl]
  exact ⟨_, cell?_eq_some_iff.mpr ⟨slot, h, rfl⟩⟩

theorem filledKeys_evaluateSlot {s : Sheet} (own : s.SelfLabelled) {l : String} {slot : Nat}
    (h : s.keys.lookup l = some slot) : (s.evaluateSlot slot).sheet.filledKeys = s.filledKeys :=
  filledKeys_of_keys (formula_evaluateSlot own h) (s.keys_evaluateSlot slot)

theorem filledKeys_evaluateAll {s : Sheet} {labels : List String} (own : s.SelfLabelled)
    (filled : ∀ l ∈ labels, s.formula l ≠ []) :
    (s.evaluateAll labels).sheet.filledKeys = s.filledKeys := by
  induction labels generalizing s with
  | nil => rfl
  | cons l rest ih =>
    obtain ⟨c, hc, _⟩ := exists_cell?_of_formula (filled l List.mem_cons_self)
    obtain ⟨slot, hs, _⟩ := cell?_eq_some_iff.mp hc
    have filledLater : ∀ l' ∈ rest, (s.evaluateSlot slot).sheet.formula l' ≠ [] := by
      intro l' hl
      rw [formula_evaluateSlot own hs]
      exact filled l' (List.mem_cons_of_mem l hl)
    have later := ih (evaluateSlot_passed own hs).2.2.own filledLater
    rw [Sheet.evaluateAll, evaluateCell_of_lookup hs]
    exact later.trans (filledKeys_evaluateSlot own hs)

theorem formula_of_ordered {s : Sheet} (own : s.SelfLabelled) :
    ∀ l ∈ s.evaluationOrder, s.formula l ≠ [] := by
  intro l hl
  obtain ⟨c, hc, full⟩ := (mem_evaluationOrder_iff own).mp hl
  rw [formula_of_cell? hc]
  exact isFilled_iff.mp full

theorem filledKeys_recalculate {s : Sheet} (own : s.SelfLabelled) :
    s.recalculate.sheet.filledKeys = s.filledKeys :=
  filledKeys_evaluateAll own (formula_of_ordered own)

namespace SameButBlanks

variable {s t u : Sheet}

theorem of_grows (grows : Grows s t) : SameButBlanks s t :=
  ⟨grows.rows, grows.columns, fun k => .inl (grows.cells k)⟩

/-- Where no key of a formula ends in a line feed, two of them share no position. -/
theorem ties_of_plain (same : SameButBlanks s t)
    (plain : ∀ k, s.formula k ≠ [] → Label.endsLine k = false) : SameTies s t := by
  intro p
  have perm : (atPosition p t.filledKeys).Perm (atPosition p s.filledKeys) := by
    apply (List.perm_ext_iff_of_nodup (t.nodup_filledKeys p) (s.nodup_filledKeys p)).mpr
    intro k
    rw [mem_filledKeys, mem_filledKeys, same.formula]
  have alone : ∀ a b, a ∈ atPosition p t.filledKeys → b ∈ atPosition p s.filledKeys → a = b := by
    intro a b ha hb
    obtain ⟨positionA, filledA⟩ := mem_filledKeys.mp (perm.mem_iff.mp ha)
    obtain ⟨positionB, filledB⟩ := mem_filledKeys.mp hb
    apply eq_of_sortPosition filledA filledB (positionA.trans positionB.symm)
    rw [plain a filledA, plain b filledB]
  have any : ∀ labels : List String, labels.Pairwise fun _ _ => True :=
    fun _ => List.pairwise_of_forall fun _ _ => trivial
  exact perm.eq_of_pairwise (fun a b ha hb _ _ => alone a b ha hb) (any _) (any _)

theorem symm (same : SameButBlanks s t) : SameButBlanks t s :=
  ⟨same.rows.symm, same.columns.symm, fun k => (same.cells k).symm⟩

theorem trans (first : SameButBlanks s t) (later : SameButBlanks t u) : SameButBlanks s u := by
  refine ⟨later.rows.trans first.rows, later.columns.trans first.columns, ?_⟩
  intro k
  rw [← shown_eq_iff, later.shown, first.shown]

theorem touch (s : Sheet) (labels : List String) : SameButBlanks s (s.touch labels) :=
  of_grows (grows_touch s labels)

theorem evaluate (same : SameButBlanks s t) (isLabel : Token → Bool) (tokens : List Token) :
    (t.evaluate isLabel tokens).1 = (s.evaluate isLabel tokens).1 ∧
      SameButBlanks (s.evaluate isLabel tokens).2 (t.evaluate isLabel tokens).2 := by
  constructor
  · simp only [Sheet.evaluate, same.environment]
  · exact (touch s _).symm.trans (same.trans (touch t _))

/-- Evaluating the same formula under the same key on both sheets. -/
theorem evaluateSlot (same : SameButBlanks s t) (own : s.SelfLabelled) {l : String} {i j : Nat}
    (hs : s.keys.lookup l = some i) (ht : t.keys.lookup l = some j)
    (cell : t.cellAt j = s.cellAt i) :
    (t.evaluateSlot j).value = (s.evaluateSlot i).value ∧
      (t.evaluateSlot j).notices = (s.evaluateSlot i).notices ∧
      SameButBlanks (s.evaluateSlot i).sheet (t.evaluateSlot j).sheet := by
  obtain ⟨value, here, passed⟩ := evaluateSlot_passed own hs
  obtain ⟨value', here', passed'⟩ := evaluateSlot_passed (same.own own) ht
  have values : (t.evaluateSlot j).value = (s.evaluateSlot i).value := by
    rw [value, value', same.environment, cell]
  refine ⟨values, ?_, ?_⟩
  · have notices : ∀ (u : Sheet) (n : Nat), (u.evaluateSlot n).notices =
        [.ofOutcome (u.cellAt n).label (u.cellAt n).formula (u.evaluateSlot n).value] :=
      fun _ _ => rfl
    rw [notices, notices, values, cell]
  · constructor
    · rw [passed.rows, passed'.rows, same.rows]
    · rw [passed.columns, passed'.columns, same.columns]
    · intro k
      rw [← shown_eq_iff]
      -- the cell of the key takes the outcome, all others are as they were but for new blank ones
      by_cases at' : k = l
      · subst at'
        rw [shown_of_cell? here, shown_of_cell? here', values, cell]
      · have aside : k ∉ [l] := by simpa using at'
        rw [(passed.aside k aside).shown, (passed'.aside k aside).shown, same.shown]

theorem evaluateAll {labels : List String} (same : SameButBlanks s t) (own : s.SelfLabelled)
    (filled : ∀ l ∈ labels, s.formula l ≠ []) :
    (t.evaluateAll labels).value = (s.evaluateAll labels).value ∧
      (t.evaluateAll labels).notices = (s.evaluateAll labels).notices ∧
      SameButBlanks (s.evaluateAll labels).sheet (t.evaluateAll labels).sheet := by
  induction labels generalizing s t with
  | nil => exact ⟨rfl, rfl, same⟩
  | cons l rest ih =>
    have here := filled l List.mem_cons_self
    have there := here
    rw [← same.formula] at there
    obtain ⟨c, hc, _⟩ := exists_cell?_of_formula here
    obtain ⟨c', hc', _⟩ := exists_cell?_of_formula there
    obtain ⟨i, hs, rfl⟩ := cell?_eq_some_iff.mp hc
    obtain ⟨j, ht, rfl⟩ := cell?_eq_some_iff.mp hc'
    have cell : t.cellAt j = s.cellAt i := by
      rw [← shown_of_cell? hc, ← shown_of_cell? hc', same.shown]
    obtain ⟨value, notices, later⟩ := same.evaluateSlot own hs ht cell
    have filledLater : ∀ l' ∈ rest, (s.evaluateSlot i).sheet.formula l' ≠ [] := by
      intro l' hl
      rw [formula_evaluateSlot own hs]
      exact filled l' (List.mem_cons_of_mem l hl)
    have ownLater := (evaluateSlot_passed own hs).2.2.own
    obtain ⟨values, moreNotices, last⟩ := ih later ownLater filledLater
    rw [Sheet.evaluateAll, Sheet.evaluateAll, evaluateCell_of_lookup hs, evaluateCell_of_lookup ht]
    simp only [passOn]
    rw [value, notices, values, moreNotices]
    exact ⟨rfl, rfl, last⟩

theorem recalculate (same : SameButBlanks s t) (own : s.SelfLabelled) (ties : SameTies s t) :
    t.recalculate.value = s.recalculate.value ∧
      t.recalculate.notices = s.recalculate.notices ∧
      SameButBlanks s.recalculate.sheet t.recalculate.sheet ∧
      SameTies s.recalculate.sheet t.recalculate.sheet := by
  obtain ⟨value, notices, last⟩ := same.evaluateAll own (formula_of_ordered own)
  have order := same.evaluationOrder own ties
  have tiesLater : SameTies s.recalculate.sheet t.recalculate.sheet := by
    intro p
    rw [filledKeys_recalculate own, filledKeys_recalculate (same.own own), ties]
  refine ⟨?_, ?_, ?_, tiesLater⟩
  all_goals unfold Sheet.recalculate
  · simp only [order, value]
  · simp only [order, value, notices]
  · simp only [order]
    exact last

end SameButBlanks

/-- Evaluates formulas one after the other on the sheet as the earlier ones left it. -/
def evaluateEach (s : Sheet) (isLabel : Token → Bool) :
    List (List Token) → List Outcome × Sheet
  | [] => ([], s)
  | tokens :: rest =>
    let (outcome, s) := s.evaluate isLabel tokens
    let (outcomes, s) := s.evaluateEach isLabel rest
    (outcome :: outcomes, s)

theorem SameButBlanks.evaluateEach {s t : Sheet} (same : SameButBlanks s t)
    (isLabel : Token → Bool) (formulas : List (List Token)) :
    (t.evaluateEach isLabel formulas).1 =
        formulas.map (fun tokens => (s.evaluate isLabel tokens).1) ∧
      SameButBlanks s (t.evaluateEach isLabel formulas).2 := by
  induction formulas generalizing t with
  | nil => exact ⟨rfl, same⟩
  | cons tokens rest ih =>
    have outcome := (same.evaluate isLabel tokens).1
    obtain ⟨outcomes, last⟩ := ih (same.trans (.touch t _))
    refine ⟨?_, last⟩
    rw [List.map_cons, ← outcome, ← outcomes]
    rfl

/-- Cells that were never filled are seen by no calculation: each formula gives the same outcome, so
formulas that are evaluated one after the other give what each of them gives on the sheet as it was.
If cells with formulas that share a position came into being in the same order, the order is the
same, a recalculation tells the same of the same labels, and afterwards the sheets again differ in
such cells alone. Without a line feed at the end of their keys cells share no position. -/
theorem blanks_unobservable {s t : Sheet} (own : s.SelfLabelled) (same : SameButBlanks s t) :
    (∀ isLabel tokens, (t.evaluate isLabel tokens).1 = (s.evaluate isLabel tokens).1 ∧
        SameButBlanks (s.evaluate isLabel tokens).2 (t.evaluate isLabel tokens).2) ∧
      (SameTies s t →
        t.evaluationOrder = s.evaluationOrder ∧
        (∃ results, s.recalculate.value = .ok results ∧ t.recalculate.value = .ok results) ∧
        t.recalculate.notices = s.recalculate.notices ∧
        SameButBlanks s.recalculate.sheet t.recalculate.sheet ∧
        SameTies s.recalculate.sheet t.recalculate.sheet) ∧
      ((∀ k, s.formula k ≠ [] → Label.endsLine k = false) → SameTies s t) ∧
      ∀ isLabel formulas, (s.evaluateEach isLabel formulas).1 =
        formulas.map fun tokens => (s.evaluate isLabel tokens).1 := by
  obtain ⟨results, told, _⟩ := evaluateAll_passed own (stored_of_mem_evaluationOrder own)
  have valueHere : s.recalculate.value = .ok results := told
  refine ⟨same.evaluate, ?_, same.ties_of_plain, ?_⟩
  · intro ties
    obtain ⟨value, notices, last⟩ := same.recalculate own ties
    exact ⟨same.evaluationOrder own ties, ⟨results, valueHere, value.trans valueHere⟩, notices,
      last⟩
  · intro isLabel formulas
    exact ((SameButBlanks.touch s []).evaluateEach isLabel formulas).1

/-- Two formulas, one of which refers to a blank cell. -/
def aboveBlank : Sheet where
  rows := 2
  columns := 2
  keys := [("B1", 0), ("A1", 1), ("A2", 2)]
  pool := #[{ label := "B1", formula := ["1"], fault := none },
    { label := "A1", formula := ["B1", "+", "A2"], fault := none }, .blank "A2"]
  rows_pos := Nat.two_pos
  columns_pos := Nat.two_pos
  stored := by decide
  inside := by decide
  distinct := by decide

/-- The same formulas, stored the other way around, behind another blank cell. -/
def besideBlank : Sheet where
  rows := 2
  columns := 2
  keys := [("B2", 2), ("A1", 0), ("B1", 1)]
  pool := #[{ label := "A1", formula := ["B1", "+", "A2"], fault := none },
    { label := "B1", formula := ["1"], fault := none }, .blank "B2"]
  rows_pos := Nat.two_pos
  columns_pos := Nat.two_pos
  stored := by decide
  inside := by decide
  distinct := by decide

theorem aboveBlank_keys {k : String} {c : Cell} (h : aboveBlank.cell? k = some c) :
    (k = "B1" ∧ c = aboveBlank.cellAt 0) ∨ (k = "A1" ∧ c = aboveBlank.cellAt 1) ∨
      (k = "A2" ∧ c = .blank "A2") := by
  obtain ⟨slot, hs, rfl⟩ := cell?_eq_some_iff.mp h
  have mem := mem_keys_of_lookup hs
  simp only [aboveBlank, List.mem_cons, Prod.mk.injEq, List.not_mem_nil, or_false] at mem
  rcases mem with ⟨rfl, rfl⟩ | ⟨rfl, rfl⟩ | ⟨rfl, rfl⟩
  · exact .inl ⟨rfl, rfl⟩
  · exact .inr (.inl ⟨rfl, rfl⟩)
  · exact .inr (.inr ⟨rfl, rfl⟩)

theorem aboveBlank_selfLabelled : aboveBlank.SelfLabelled := by
  intro k c hc
  rcases aboveBlank_keys hc with ⟨rfl, rfl⟩ | ⟨rfl, rfl⟩ | ⟨rfl, rfl⟩
  all_goals rfl

theorem besideBlank_sameButBlanks : SameButBlanks aboveBlank besideBlank := by
  refine ⟨rfl, rfl, ?_⟩
  intro k
  by_cases stored : k ∈ ["A1", "B1", "A2", "B2"]
  · simp only [List.mem_cons, List.not_mem_nil, or_false] at stored
    rcases stored with rfl | rfl | rfl | rfl
    · exact .inl (.inl rfl)
    · exact .inl (.inl rfl)
    · exact .inr (.inr ⟨rfl, rfl⟩)
    · exact .inl (.inr ⟨rfl, rfl⟩)
  · simp only [List.mem_cons, List.not_mem_nil, or_false, not_or] at stored
    have missing : aboveBlank.cell? k = none := cell?_of_notMem (by simp [aboveBlank, stored])
    have missing' : besideBlank.cell? k = none := cell?_of_notMem (by simp [besideBlank, stored])
    exact .inl (.inl (missing'.trans missing.symm))

theorem aboveBlank_plain (k : String) (filled : aboveBlank.formula k ≠ []) :
    Label.endsLine k = false := by
  obtain ⟨c, hc, _⟩ := exists_cell?_of_formula filled
  rcases aboveBlank_keys hc with ⟨rfl, -⟩ | ⟨rfl, -⟩ | ⟨rfl, -⟩
  all_goals decide

theorem blanks_unobservable_on_samples :
    aboveBlank.SelfLabelled ∧ SameButBlanks aboveBlank besideBlank ∧
      besideBlank.evaluationOrder = aboveBlank.evaluationOrder ∧
      (∃ results, aboveBlank.recalculate.value = .ok results ∧
        besideBlank.recalculate.value = .ok results) ∧
      (besideBlank.evaluate Label.isLabel ["B2", "*", "2"]).1 =
        (aboveBlank.evaluate Label.isLabel ["B2", "*", "2"]).1 ∧
      (aboveBlank.evaluateEach Label.isLabel [["B2", "*", "2"], ["A1"], ["B2", "*", "2"]]).1 =
        [["B2", "*", "2"], ["A1"], ["B2", "*", "2"]].map fun tokens =>
          (aboveBlank.evaluate Label.isLabel tokens).1 := by
  obtain ⟨evaluated, ordered, ties, each⟩ :=
    blanks_unobservable aboveBlank_selfLabelled besideBlank_sameButBlanks
  obtain ⟨order, results, -⟩ := ordered (ties aboveBlank_plain)
  exact ⟨aboveBlank_selfLabelled, besideBlank_sameButBlanks, order, results,
    (evaluated _ _).1, each _ _⟩

/-- Two cells of one position: the label without a line feed came first. -/
def plainFirst : Sheet where
  rows := 1
  columns := 1
  keys := [("A1", 0), ("A1\n", 1)]
  pool := #[{ label := "A1", formula := ["1"], fault := none },
    { label := "A1\n", formula := ["2"], fault := none }]
  rows_pos := Nat.one_pos
  columns_pos := Nat.one_pos
  stored := by decide
  inside := by decide
  distinct := by decide

/-- The same two cells, created the other way around. -/
def plainLast : Sheet :=
  { plainFirst with
    keys := [("A1\n", 1), ("A1", 0)]
    stored := by decide
    inside := by decide
    distinct := by decide }

theorem plainFirst_keys {k : String} {c : Cell} (h : plainFirst.cell? k = some c) :
    (k = "A1" ∧ c = plainFirst.cellAt 0) ∨ (k = "A1\n" ∧ c = plainFirst.cellAt 1) := by
  obtain ⟨slot, hs, rfl⟩ := cell?_eq_some_iff.mp h
  have mem := mem_keys_of_lookup hs
  simp only [plainFirst, List.mem_cons, Prod.mk.injEq, List.not_mem_nil, or_false] at mem
  rcases mem with ⟨rfl, rfl⟩ | ⟨rfl, rfl⟩
  · exact .inl ⟨rfl, rfl⟩
  · exact .inr ⟨rfl, rfl⟩

theorem plainFirst_selfLabelled : plainFirst.SelfLabelled := by
  intro k c hc
  rcases plainFirst_keys hc with ⟨rfl, rfl⟩ | ⟨rfl, rfl⟩
  all_goals rfl

theorem plainLast_sameButBlanks : SameButBlanks plainFirst plainLast := by
  refine ⟨rfl, rfl, ?_⟩
  intro k
  by_cases stored : k ∈ ["A1", "A1\n"]
  · simp only [List.mem_cons, List.not_mem_nil, or_false] at stored
    rcases stored with rfl | rfl
    · exact .inl (.inl rfl)
    · exact .inl (.inl rfl)
  · simp only [List.mem_cons, List.not_mem_nil, or_false, not_or] at stored
    have missing : plainFirst.cell? k = none := cell?_of_notMem (by simp [plainFirst, stored])
    have missing' : plainLast.cell? k = none := cell?_of_notMem (by simp [plainLast, stored])
    exact .inl (.inl (missing'.trans missing.symm))

theorem plainFirst_references (l : String) : plainFirst.references l = [] := by
  rw [references_eq_shown, shown]
  cases hc : plainFirst.cell? (Text.upper l) with
  | none => rfl
  | some c =>
    rw [Option.getD_some]
    rcases plainFirst_keys hc with ⟨-, rfl⟩ | ⟨-, rfl⟩
    all_goals decide

/-- Sheets with the very same cells, of which two share a position, evaluate them in the order of
their creation. -/
theorem creation_order_seen :
    plainFirst.SelfLabelled ∧ SameButBlanks plainFirst plainLast ∧
      plainFirst.evaluationOrder = ["A1", "A1\n"] ∧
      plainLast.evaluationOrder = ["A1\n", "A1"] := by
  have own := plainFirst_selfLabelled
  have same := plainLast_sameButBlanks
  have nowhere : ∀ l, plainLast.references l = [] := by
    intro l
    rw [references_eq_shown, same.shown, ← references_eq_shown, plainFirst_references]
  have tied : ∀ a ∈ ["A1", "A1\n"], ∀ b ∈ ["A1", "A1\n"],
      Position.le ((Label.position? a).getD ⟨0, 0⟩) ((Label.position? b).getD ⟨0, 0⟩) = true := by
    decide +kernel
  have first := tied "A1" (by simp) "A1\n" (by simp)
  have last := tied "A1\n" (by simp) "A1" (by simp)
  refine ⟨own, same, ?_, ?_⟩
  · rw [evaluationOrder_of_unreferring own plainFirst_references]
    simp [labelsWithFormulas, cells, entries, sortedKeys, plainFirst, List.mergeSort,
      List.MergeSort.Internal.splitInTwo, first, cellAt, Cell.isFilled]
  · rw [evaluationOrder_of_unreferring (same.own own) nowhere]
    simp [labelsWithFormulas, cells, entries, sortedKeys, plainLast, plainFirst, List.mergeSort,
      List.MergeSort.Internal.splitInTwo, last, cellAt, Cell.isFilled]

end FormulaSheet.Sheet
