import FormulaSheet.Proofs.Sheet.Soundness
/-!
Formulas entered one after the other. Every edit recalculates the sheet, which shows transient
faults on the way and has cells for labels that have no formula yet; but each formula that reaches
no circle shows what it means after every edit, and what it means depends on the formulas alone. So
the order of the edits does not matter, nor whether they are edits or a table read at once.
-/

namespace FormulaSheet

/-- A formula text and the label it is meant for. -/
structure Edit where
  label : String
  text : String

def Edit.key (e : Edit) : String := Text.upper e.label

namespace Sheet

/-- Every formula that reaches no circle shows what it means. -/
def Settled (s : Sheet) : Prop :=
  ∀ x, s.formula x ≠ [] → s.Acyclic x → Means s.formula x (s.outcome x)

theorem Sound.blanksMarked {s : Sheet} (h : s.Sound) : s.BlanksMarked := by
  intro k c hc empty
  obtain ⟨i, _, rfl⟩ := cell?_eq_some_iff.mp hc
  apply (h i).unfilled.mp
  by_contra filled
  rw [isFilled_iff.mpr filled] at empty
  cases empty

theorem settled_recalculate {s : Sheet} (own : s.SelfLabelled) (marked : s.BlanksMarked) :
    s.recalculate.sheet.Settled := by
  have same : s.recalculate.sheet.formula = s.formula := funext (formula_recalculate own)
  intro x filled acyclic
  rw [same] at filled ⊢
  exact means_recalculate own marked filled (acyclic.congr same.symm)

/-- What each edit keeps. -/
structure Steady (s : Sheet) : Prop where
  own : s.SelfLabelled
  sound : s.Sound
  settled : s.Settled

theorem steady_recalculate {s : Sheet} (own : s.SelfLabelled) (sound : s.Sound) :
    s.recalculate.sheet.Steady :=
  ⟨(recalculate_passed own).own, sound.recalculate, settled_recalculate own sound.blanksMarked⟩

theorem cell?_empty? {rows columns : Int} {s : Sheet} (new : empty? rows columns = some s)
    (k : String) : s.cell? k = none := by
  unfold empty? at new
  split at new
  · cases new
    rfl
  · cases new

theorem formula_empty? {rows columns : Int} {s : Sheet} (new : empty? rows columns = some s)
    (k : String) : s.formula k = [] := by
  rw [formula, cell?_empty? new]
  rfl

theorem steady_empty? {rows columns : Int} {s : Sheet} (new : empty? rows columns = some s) :
    s.Steady := by
  constructor
  · intro k c hc
    rw [cell?_empty? new] at hc
    cases hc
  · exact sound_empty? new
  · intro x filled
    exact absurd (formula_empty? new x) filled

theorem cellTokens?_text {text : String} {tokens : List Token}
    (readable : tokenize text = .ok tokens) :
    Spec.cellTokens? (.text text) = .ok (some tokens) := by
  rw [Spec.cellTokens?, Spec.formulaTokens, readable]
  rfl

theorem selfLabelled_ofSpec {entries : List (Value × Value)} {s : Sheet}
    (described : ofSpec entries = .ok s) : s.SelfLabelled := by
  refine ofSpec_keeps ?_ ?_ described
  · intro rows columns s new k c hc
    rw [cell?_empty? new] at hc
    cases hc
  · intro s label slot t tokens located own
    exact (stored_modify own (located_of_locate located) tokens).own

/-- The second sheet has the formulas of the edits under their keys and those of the first sheet
under all other keys. -/
structure Filled (edits : List Edit) (s t : Sheet) : Prop where
  own : t.SelfLabelled
  here : ∀ e ∈ edits, ∃ c, t.cell? e.key = some c ∧ tokenize e.text = .ok c.formula
  elsewhere : ∀ k, k ∉ edits.map Edit.key → t.formula k = s.formula k
  kept : ∀ k c, s.cell? k = some c → ∃ c', t.cell? k = some c'

theorem Filled.nil {s : Sheet} (own : s.SelfLabelled) : Filled [] s s := by
  constructor
  · exact own
  · intro e he
    cases he
  · intro k _
    rfl
  · intro k c hc
    exact ⟨c, hc⟩

theorem Filled.cons {e : Edit} {rest : List Edit} {tokens : List Token} {s t u : Sheet}
    (readable : tokenize e.text = .ok tokens) (fresh : e.key ∉ rest.map Edit.key)
    (first : Stored e.key tokens s t) (later : Filled rest t u) : Filled (e :: rest) s u := by
  constructor
  · exact later.own
  · intro e' he
    rcases List.mem_cons.mp he with rfl | he
    · obtain ⟨c, hc, _⟩ := first.here
      obtain ⟨c', hc'⟩ := later.kept _ c hc
      have same := later.elsewhere _ fresh
      rw [first.formula, formula_of_cell? hc'] at same
      exact ⟨c', hc', same ▸ readable⟩
    · exact later.here e' he
  · intro k hk
    rw [List.map_cons, List.mem_cons, not_or] at hk
    rw [later.elsewhere k hk.2, first.elsewhere k hk.1]
  · intro k c hc
    obtain ⟨c', hc'⟩ := first.kept k c hc
    exact later.kept k c' hc'

/-- The edits can be made in a sheet: each is meant for a cell of it, no two for the same one, and
their texts can be read. -/
structure Suits (edits : List Edit) (s : Sheet) : Prop where
  inside : ∀ e ∈ edits, ∃ k, s.key e.label = .ok k
  distinct : (edits.map Edit.key).Nodup
  readable : ∀ e ∈ edits, ∃ tokens, tokenize e.text = .ok tokens

theorem Suits.perm {edits edits' : List Edit} {s : Sheet} (h : Suits edits s)
    (order : edits'.Perm edits) : Suits edits' s := by
  constructor
  · exact fun e he => h.inside e (order.mem_iff.mp he)
  · exact (order.map Edit.key).nodup_iff.mpr h.distinct
  · exact fun e he => h.readable e (order.mem_iff.mp he)

theorem Suits.tail {e : Edit} {rest : List Edit} {s t : Sheet} (h : Suits (e :: rest) s)
    (rows : t.rows = s.rows) (columns : t.columns = s.columns) : Suits rest t := by
  constructor
  · intro e' he
    rw [key_congr rows columns]
    exact h.inside e' (List.mem_cons_of_mem e he)
  · exact (List.nodup_cons.mp h.distinct).2
  · exact fun e' he => h.readable e' (List.mem_cons_of_mem e he)

theorem Suits.head {e : Edit} {rest : List Edit} {s : Sheet} (h : Suits (e :: rest) s) :
    s.key e.label = .ok e.key ∧ (∃ tokens, tokenize e.text = .ok tokens) ∧
      e.key ∉ rest.map Edit.key := by
  obtain ⟨k, hk⟩ := h.inside e List.mem_cons_self
  refine ⟨?_, h.readable e List.mem_cons_self, (List.nodup_cons.mp h.distinct).1⟩
  rw [Edit.key, ← (key_eq_ok_iff.mp hk).1]
  exact hk

/-- The sheet after an edit that is not refused. -/
def enter (s : Sheet) (e : Edit) : Except FormulaError Sheet :=
  let done := s.setFormula e.label (.text e.text)
  done.value.map fun _ => done.sheet

theorem enter_stored {e : Edit} {s : Sheet} (steady : s.Steady) (inside : s.key e.label = .ok e.key)
    {tokens : List Token} (readable : tokenize e.text = .ok tokens) :
    ∃ t, s.enter e = .ok t ∧ Stored e.key tokens s t ∧ t.Steady := by
  obtain ⟨⟨o, value⟩, u, stored, sheet⟩ := setFormula_stored steady.own inside readable
  have sound := steady.sound.setFormula e.label (.text e.text)
  have settled := settled_recalculate stored.own (stored.marked steady.sound.blanksMarked)
  rw [sheet] at sound
  refine ⟨u.recalculate.sheet, ?_, stored.recalculate, stored.recalculate.own, sound, settled⟩
  unfold enter
  dsimp only
  rw [value, sheet]
  rfl

theorem enter_filled {edits : List Edit} {s : Sheet} (steady : s.Steady) (suits : Suits edits s) :
    ∃ t, edits.foldlM enter s = .ok t ∧ Filled edits s t ∧ t.Steady := by
  induction edits generalizing s with
  | nil => exact ⟨s, rfl, .nil steady.own, steady⟩
  | cons e rest ih =>
    obtain ⟨inside, ⟨tokens, readable⟩, fresh⟩ := suits.head
    obtain ⟨t, entered, stored, next⟩ := enter_stored steady inside readable
    obtain ⟨u, run, filled, last⟩ := ih next (suits.tail stored.rows stored.columns)
    refine ⟨u, ?_, .cons readable fresh stored filled, last⟩
    rw [List.foldlM_cons, entered]
    exact run

/-! The same formulas from a table. -/

def Edit.entry (e : Edit) : Value × Value := (.text e.label, .text e.text)

/-- The table gives the size of the sheet, if only by leaving it out, and the cells by their formula
texts alone. -/
structure Describes (entries : List (Value × Value)) (rows columns : Int) (edits : List Edit) :
    Prop where
  rows : Spec.dimension "n_rows" Spec.defaultRows entries = .ok rows
  columns : Spec.dimension "n_cols" Spec.defaultColumns entries = .ok columns
  cells : Value.find? "cells" entries = some (.table (edits.map Edit.entry))

theorem fill_filled {edits : List Edit} {s : Sheet} (own : s.SelfLabelled) (sound : s.Sound)
    (suits : Suits edits s) :
    ∃ t, Spec.fill s (edits.map Edit.entry) = .ok t ∧ Filled edits s t ∧ t.Sound := by
  induction edits generalizing s with
  | nil => exact ⟨s, rfl, .nil own, sound⟩
  | cons e rest ih =>
    obtain ⟨inside, ⟨tokens, readable⟩, fresh⟩ := suits.head
    obtain ⟨slot, t, found, located⟩ := exists_locate inside
    have stored := stored_modify own located tokens
    have kept : (t.modify slot (Cell.setFormula tokens)).Sound :=
      ((extends_locate found).sound sound).modify
        (((extends_locate found).sound sound slot).setFormula tokens)
    obtain ⟨u, run, filled, last⟩ := ih stored.own kept (suits.tail stored.rows stored.columns)
    refine ⟨u, ?_, .cons readable fresh stored filled, last⟩
    rw [List.map_cons, Edit.entry, Spec.fill, cellTokens?_text readable]
    simp only [bind, Except.bind, Value.display, found, Except.mapError]
    exact run

theorem ofSpec_of_describes {entries : List (Value × Value)} {rows columns : Int}
    {edits : List Edit} {blank t : Sheet} (given : Describes entries rows columns edits)
    (new : empty? rows columns = some blank)
    (filled : Spec.fill blank (edits.map Edit.entry) = .ok t) : ofSpec entries = .ok t := by
  unfold ofSpec
  rw [given.rows, given.columns]
  simp only [bind, Except.bind, new, given.cells]
  exact filled

/-! The two against each other. -/

/-- The formula that is meant for the first label refers to the second label. -/
def Refers (edits : List Edit) (x d : String) : Prop :=
  ∃ e ∈ edits, e.key = x ∧ ∃ tokens, tokenize e.text = .ok tokens ∧ d ∈ tokens ∧
    Label.isLabel d = true

theorem Filled.formula_eq {edits edits' : List Edit} {s t t' : Sheet} (h : Filled edits s t)
    (h' : Filled edits' s t') (order : edits'.Perm edits) : t'.formula = t.formula := by
  funext k
  by_cases mem : k ∈ edits.map Edit.key
  · obtain ⟨e, he, rfl⟩ := List.mem_map.mp mem
    obtain ⟨c, hc, read⟩ := h.here e he
    obtain ⟨c', hc', read'⟩ := h'.here e (order.mem_iff.mpr he)
    rw [formula_of_cell? hc, formula_of_cell? hc']
    rw [read] at read'
    exact (Except.ok.inj read').symm
  · have other : k ∉ edits'.map Edit.key := fun mem' => mem ((order.map Edit.key).mem_iff.mp mem')
    rw [h.elsewhere k mem, h'.elsewhere k other]

theorem Filled.refers {edits : List Edit} {s t : Sheet} (h : Filled edits s t)
    (blank : ∀ k, s.formula k = []) {x d : String} (depends : t.DependsOn x d) :
    Refers edits x d := by
  obtain ⟨mem, label⟩ := dependsOn_iff.mp depends
  by_cases key : x ∈ edits.map Edit.key
  · obtain ⟨e, he, rfl⟩ := List.mem_map.mp key
    obtain ⟨c, hc, read⟩ := h.here e he
    rw [formula_of_cell? hc] at mem
    exact ⟨e, he, rfl, c.formula, read, mem, label⟩
  · rw [h.elsewhere x key, blank] at mem
    cases mem

theorem Filled.acyclic {edits : List Edit} {s t : Sheet} (h : Filled edits s t)
    (blank : ∀ k, s.formula k = [])
    (noCircle : ∀ x, ¬ Relation.TransGen (Refers edits) x x) (x : String) : t.Acyclic x := by
  intro y _ circle
  exact noCircle y (Relation.TransGen.mono (fun _ _ => h.refers blank) y y circle)

theorem cell_eq {s t : Sheet} {k : String} {c c' : Cell} (own : s.SelfLabelled)
    (ownThere : t.SelfLabelled) (hc : s.cell? k = some c) (hc' : t.cell? k = some c')
    (formula : c'.formula = c.formula) (value : c'.value = c.value) (fault : c'.fault = c.fault) :
    c' = c := by
  have label : c'.label = c.label := (ownThere k c' hc').trans (own k c hc).symm
  obtain ⟨_, _, _, _⟩ := c
  obtain ⟨_, _, _, _⟩ := c'
  cases label
  cases formula
  cases value
  cases fault
  rfl

/-- Steady sheets of the same formulas, none on a circle, have the same cells under a common key. -/
theorem Steady.cell_eq {s t : Sheet} (h : s.Steady) (h' : t.Steady) (same : t.formula = s.formula)
    {k : String} (acyclic : s.Acyclic k) {c c' : Cell} (hc : s.cell? k = some c)
    (hc' : t.cell? k = some c') : c' = c := by
  have formula : c'.formula = c.formula := by
    rw [← formula_of_cell? hc, ← formula_of_cell? hc', same]
  have sound := sound_of_mem_cells h.sound (mem_cells_iff.mpr ⟨k, hc⟩)
  have sound' := sound_of_mem_cells h'.sound (mem_cells_iff.mpr ⟨k, hc'⟩)
  by_cases empty : c.formula = []
  · have empty' : c'.formula = [] := formula.trans empty
    refine Sheet.cell_eq h.own h'.own hc hc' formula ?_ ?_
    · rw [sound.zero empty, sound'.zero empty']
    · rw [sound.unfilled.mp empty, sound'.unfilled.mp empty']
  · have filled : s.formula k ≠ [] := formula_of_cell? hc ▸ empty
    have meaning := h.settled k filled acyclic
    have meaning' := h'.settled k (same ▸ filled) (acyclic.congr same)
    rw [same] at meaning'
    have outcome := meaning'.unique meaning
    rw [outcome_of_cell? hc, outcome_of_cell? hc'] at outcome
    exact Sheet.cell_eq h.own h'.own hc hc' formula (congrArg Outcome.result outcome)
      (congrArg Outcome.fault outcome)

/-- Formulas that refer to each other in no circle lead to the same cells in whatever order they are
entered into an empty sheet, and to those that a table with all of them gives by one
recalculation. -/
theorem order_of_edits {rows columns : Int} {blank : Sheet} (new : empty? rows columns = some blank)
    {edits order : List Edit} (suits : Suits edits blank)
    (noCircle : ∀ x, ¬ Relation.TransGen (Refers edits) x x) (reordered : order.Perm edits)
    {entries : List (Value × Value)} (given : Describes entries rows columns edits) :
    ∃ s t, order.foldlM enter blank = .ok s ∧ ofSpec entries = .ok t ∧
      ∀ e ∈ edits, ∃ c, s.cell? e.key = some c ∧ t.recalculate.sheet.cell? e.key = some c ∧
        tokenize e.text = .ok c.formula := by
  have steady := steady_empty? new
  obtain ⟨s, run, filled, settled⟩ := enter_filled steady (suits.perm reordered)
  obtain ⟨t, described, filledThere, sound⟩ := fill_filled steady.own steady.sound suits
  refine ⟨s, t, run, ofSpec_of_describes given new described, ?_⟩
  have formulas : s.formula = t.formula := filledThere.formula_eq filled reordered
  have recalculated : t.recalculate.sheet.formula = t.formula :=
    funext (formula_recalculate filledThere.own)
  have acyclic := filledThere.acyclic (formula_empty? new) noCircle
  intro e he
  obtain ⟨c, hc, read⟩ := filled.here e (reordered.mem_iff.mpr he)
  obtain ⟨c₀, hc₀, _⟩ := filledThere.here e he
  obtain ⟨o, ho⟩ := (recalculate_passed filledThere.own).stored e.key c₀ hc₀
  have same := settled.cell_eq (steady_recalculate filledThere.own sound)
    (recalculated.trans formulas.symm) ((acyclic e.key).congr formulas) hc ho
  exact ⟨c, hc, same ▸ ho, read⟩

/-- A reference, entered before and after what it refers to. -/
def twoEdits : List Edit := [⟨"A1", "=B1 * 2"⟩, ⟨"b1", "1 + 2"⟩]

theorem suits_twoEdits : Suits twoEdits standard := by
  have first : standard.key "A1" = .ok "A1" := by decide +kernel
  have second : standard.key "b1" = .ok "B1" := by decide +kernel
  have firstText : tokenize "=B1 * 2" = .ok ["B1", "*", "2"] := by decide +kernel
  have secondText : tokenize "1 + 2" = .ok ["1", "+", "2"] := by decide +kernel
  constructor
  · intro e he
    rcases List.mem_pair.mp he with rfl | rfl
    · exact ⟨_, first⟩
    · exact ⟨_, second⟩
  · decide +kernel
  · intro e he
    rcases List.mem_pair.mp he with rfl | rfl
    · exact ⟨_, firstText⟩
    · exact ⟨_, secondText⟩

theorem refers_twoEdits {x d : String} (h : Refers twoEdits x d) : x = "A1" ∧ d = "B1" := by
  obtain ⟨e, he, rfl, tokens, read, mem, label⟩ := h
  have firstText : tokenize "=B1 * 2" = .ok ["B1", "*", "2"] := by decide +kernel
  have secondText : tokenize "1 + 2" = .ok ["1", "+", "2"] := by decide +kernel
  have first : Edit.key ⟨"A1", "=B1 * 2"⟩ = "A1" := by decide +kernel
  have onlyLabel : ∀ d ∈ ["B1", "*", "2"], Label.isLabel d = true → d = "B1" := by decide +kernel
  have noLabel : ∀ d ∈ ["1", "+", "2"], ¬ Label.isLabel d = true := by decide +kernel
  rcases List.mem_pair.mp he with rfl | rfl
  · cases firstText.symm.trans read
    exact ⟨first, onlyLabel d mem label⟩
  · cases secondText.symm.trans read
    exact absurd label (noLabel d mem)

theorem noCircle_twoEdits (x : String) : ¬ Relation.TransGen (Refers twoEdits) x x := by
  intro h
  obtain ⟨_, first, _⟩ := Relation.TransGen.head'_iff.mp h
  obtain ⟨_, _, last⟩ := Relation.TransGen.tail'_iff.mp h
  have start := (refers_twoEdits first).1
  rw [(refers_twoEdits last).2] at start
  exact absurd start (by decide)

theorem order_of_twoEdits :
    Suits twoEdits standard ∧ (∀ x, ¬ Relation.TransGen (Refers twoEdits) x x) ∧
      ∃ s t, twoEdits.reverse.foldlM enter standard = .ok s ∧
        ofSpec [(.text "cells", .table (twoEdits.map Edit.entry))] = .ok t ∧
        ∀ e ∈ twoEdits, ∃ c, s.cell? e.key = some c ∧
          t.recalculate.sheet.cell? e.key = some c ∧ tokenize e.text = .ok c.formula := by
  have given : Describes [(.text "cells", .table (twoEdits.map Edit.entry))] 100 26 twoEdits :=
    ⟨rfl, rfl, rfl⟩
  exact ⟨suits_twoEdits, noCircle_twoEdits,
    order_of_edits rfl suits_twoEdits noCircle_twoEdits (List.reverse_perm twoEdits) given⟩

end Sheet

end FormulaSheet
