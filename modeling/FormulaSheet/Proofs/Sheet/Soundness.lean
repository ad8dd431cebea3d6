import FormulaSheet.Proofs.Formula.Faults
import FormulaSheet.Proofs.Sheet.Entry
import FormulaSheet.Sheet.Spec
/-!
What holds of every cell at every time. A cell without a formula is as blank as a new one; a cell
with a formula has no fault or one of the known kinds, and shows infinity for a division by zero.
Each operation keeps this, on circles of references too, so it holds of every sheet that operations
lead to from an empty sheet or from a table.
-/

namespace FormulaSheet

namespace Cell

structure Sound (c : Cell) : Prop where
  unfilled : c.formula = [] ↔ c.fault = some .emptyFormula
  zero : c.formula = [] → c.value = 0.0
  known : ∀ fault ∈ c.fault, fault ∈ Fault.kinds
  infinite : c.fault = some .divideByZero → c.value = 1.0 / 0.0

theorem sound_of_unfilled {c : Cell} (formula : c.formula = []) (value : c.value = 0.0)
    (fault : c.fault = some .emptyFormula) : c.Sound := by
  constructor
  · exact ⟨fun _ => fault, fun _ => formula⟩
  · exact fun _ => value
  · intro f hf
    rw [fault] at hf
    cases hf
    decide
  · intro division
    rw [fault] at division
    cases division

theorem sound_blank (label : String) : (blank label).Sound := sound_of_unfilled rfl rfl rfl

theorem Sound.setFormula {c : Cell} (h : c.Sound) (tokens : List Token) :
    (c.setFormula tokens).Sound := by
  cases tokens with
  | nil => exact sound_of_unfilled rfl rfl rfl
  | cons t rest =>
    have kept : ∀ fault, (c.setFormula (t :: rest)).fault = some fault →
        c.fault = some fault ∧ fault ≠ .emptyFormula := by
      intro fault hf
      obtain ⟨carried, other⟩ := Option.filter_eq_some_iff.mp hf
      exact ⟨carried, of_decide_eq_true other⟩
    constructor
    · constructor
      · intro empty
        cases empty
      · intro empty
        exact absurd rfl (kept _ empty).2
    · intro empty
      cases empty
    · intro fault hf
      exact h.known fault (kept fault hf).1
    · intro division
      exact h.infinite (kept _ division).1

theorem sound_setOutcome {env : Environment} (known : env.KnownFaults) (c : Cell) :
    (c.setOutcome (evaluate env c.formula).outcome).Sound := by
  by_cases empty : c.formula = []
  · have outcome : (evaluate env c.formula).outcome = ⟨0.0, some .emptyFormula⟩ := by
      rw [empty]
      rfl
    rw [outcome]
    exact sound_of_unfilled empty rfl rfl
  · have faults : ∀ fault, (evaluate env c.formula).outcome.fault = some fault →
        fault ∈ Fault.kinds ∧ fault ≠ .emptyFormula := fun fault => fault_of_evaluate known empty
    constructor
    · constructor
      · intro h
        exact absurd h empty
      · intro h
        exact absurd rfl (faults _ h).2
    · intro h
      exact absurd h empty
    · intro fault hf
      exact (faults fault hf).1
    · exact result_of_divideByZero

end Cell

namespace Sheet

def Sound (s : Sheet) : Prop := ∀ i, (s.cellAt i).Sound

theorem sound_of_mem_cells {s : Sheet} (h : s.Sound) {c : Cell} (hc : c ∈ s.cells) : c.Sound := by
  obtain ⟨k, hk⟩ := mem_cells_iff.mp hc
  obtain ⟨i, _, rfl⟩ := cell?_eq_some_iff.mp hk
  exact h i

/-- Every slot leads to the same cell, or from no cell to a blank one. -/
def Extends (s t : Sheet) : Prop :=
  ∀ i, t.cellAt i = s.cellAt i ∨ s.cellAt i = .blank "" ∧ ∃ k, t.cellAt i = .blank k

theorem Extends.refl (s : Sheet) : s.Extends s := fun _ => .inl rfl

theorem Extends.trans {s t u : Sheet} (h : s.Extends t) (h' : t.Extends u) : s.Extends u := by
  intro i
  rcases h' i with same | ⟨none, k, blank⟩
  · rw [same]
    exact h i
  · rcases h i with same | ⟨none', _⟩
    · exact .inr ⟨same ▸ none, k, blank⟩
    · exact .inr ⟨none', k, blank⟩

theorem Extends.formula {s t : Sheet} (h : s.Extends t) (i : Nat) :
    (t.cellAt i).formula = (s.cellAt i).formula := by
  rcases h i with same | ⟨none, k, blank⟩
  · rw [same]
  · rw [none, blank]
    rfl

theorem Extends.sound {s t : Sheet} (h : s.Extends t) (sound : s.Sound) : t.Sound := by
  intro i
  rcases h i with same | ⟨_, k, blank⟩
  · rw [same]
    exact sound i
  · rw [blank]
    exact Cell.sound_blank k

theorem cellAt_of_le {s : Sheet} {i : Nat} (h : s.pool.size ≤ i) : s.cellAt i = .blank "" := by
  simp [cellAt, Array.getD_eq_getD_getElem?, h]

theorem cellAt_add_of_gt {s : Sheet} (c : Cell) {i : Nat} (h : s.pool.size < i) :
    (s.add c).2.cellAt i = .blank "" := by
  apply cellAt_of_le
  rw [add, Array.size_push]
  exact h

theorem extends_fresh {s : Sheet} {k : String} (inside : Label.isKey s.rows s.columns k = true) :
    s.Extends ((s.add (.blank k)).2.assign k (s.add (.blank k)).1) := by
  intro i
  have stored : (s.add (.blank k)).1 < (s.add (.blank k)).2.pool.size := by
    rw [add, Array.size_push]
    exact Nat.lt_succ_self _
  have cells : ((s.add (.blank k)).2.assign k (s.add (.blank k)).1).cellAt i =
      if i = s.pool.size then { (s.add (.blank k)).2.cellAt i with label := k }
      else (s.add (.blank k)).2.cellAt i := cellAt_assign stored inside i
  rw [cells]
  rcases Nat.lt_trichotomy i s.pool.size with below | rfl | above
  · rw [if_neg (Nat.ne_of_lt below), cellAt_add_of_lt _ below]
    exact .inl rfl
  · rw [if_pos rfl]
    refine .inr ⟨cellAt_of_le (Nat.le_refl _), k, ?_⟩
    have new := cellAt_add s (.blank k)
    change (s.add (.blank k)).2.cellAt s.pool.size = _ at new
    rw [new]
    rfl
  · rw [if_neg (Nat.ne_of_gt above), cellAt_add_of_gt _ above,
      cellAt_of_le (Nat.le_of_lt above)]
    exact .inl rfl

theorem extends_locate {s : Sheet} {label : String} {found : Nat × Sheet}
    (h : s.locate label = .ok found) : s.Extends found.2 := by
  cases hk : s.key label with
  | error e =>
    simp only [locate, hk, Except.map] at h
    cases h
  | ok k =>
    cases hl : s.keys.lookup k with
    | some i =>
      rw [locate_of_lookup hk hl] at h
      cases h
      exact .refl s
    | none =>
      rw [locate_of_fresh hk hl] at h
      cases h
      exact extends_fresh (key_eq_ok_iff.mp hk).2

/-- The sheet after a lookup, which a text that is no label leaves as it is. -/
def lookedUp (s : Sheet) (label : String) : Sheet :=
  ((s.locate label).map (·.2)).toOption.getD s

theorem extends_lookedUp (s : Sheet) (label : String) : s.Extends (s.lookedUp label) := by
  unfold lookedUp
  cases h : s.locate label with
  | error e => exact .refl s
  | ok r => exact extends_locate h

/-- The sheet after a lookup by position. -/
def lookedUpAt (s : Sheet) (row column : Int) : Sheet :=
  ((s.locatePosition row column).map (·.2)).toOption.getD s

/-- A row that can be written is looked up by its label, and any other one changes nothing. -/
theorem lookedUpAt_eq (s : Sheet) (row column : Int) :
    s.lookedUpAt row column =
      if Decimal.isWritable (row + 1) then s.lookedUp (Label.ofPosition row column) else s := by
  unfold lookedUpAt locatePosition lookedUp
  split
  · cases s.locate (Label.ofPosition row column) <;> rfl
  · rfl

theorem extends_lookedUpAt (s : Sheet) (row column : Int) :
    s.Extends (s.lookedUpAt row column) := by
  rw [lookedUpAt_eq]
  split
  · exact s.extends_lookedUp _
  · exact .refl s

theorem extends_touch (s : Sheet) (labels : List String) : s.Extends (s.touch labels) := by
  induction labels generalizing s with
  | nil => exact .refl s
  | cons label rest ih =>
    rw [touch_cons]
    exact (s.extends_lookedUp label).trans (ih _)

theorem knownFaults {s : Sheet} (h : s.Sound) (isLabel : Token → Bool) :
    (s.environment isLabel).KnownFaults := by
  intro label reading read fault hf
  simp only [environment] at read
  cases hk : s.key label with
  | error e =>
    rw [hk] at read
    cases read
  | ok k =>
    rw [hk] at read
    cases read
    cases hc : s.cell? k with
    | none =>
      rw [hc] at hf
      exact (Cell.sound_blank k).known fault hf
    | some c =>
      obtain ⟨i, _, rfl⟩ := cell?_eq_some_iff.mp hc
      rw [hc] at hf
      exact (h i).known fault hf

/-! Each operation keeps the cells sound. -/

theorem Sound.modify {s : Sheet} (h : s.Sound) {slot : Nat} {f : Cell → Cell}
    (changed : (f (s.cellAt slot)).Sound) : (s.modify slot f).Sound := by
  intro i
  by_cases stored : slot < s.pool.size
  · rw [cellAt_modify s stored]
    split
    · rename_i here
      rw [here]
      exact changed
    · exact h i
  · have same : (s.modify slot f).cellAt i = s.cellAt i := by
      simp only [cellAt, Sheet.modify, Array.getD_eq_getD_getElem?, Array.getElem?_modify]
      split
      · rename_i here
        rw [← here, Array.getElem?_eq_none (Nat.le_of_not_lt stored)]
        rfl
      · rfl
    rw [same]
    exact h i

theorem Sound.evaluateSlot {s : Sheet} (h : s.Sound) (slot : Nat) :
    (s.evaluateSlot slot).sheet.Sound := by
  have grown := s.extends_touch
    (FormulaSheet.evaluate (s.environment Label.isLabel) (s.cellAt slot).formula).labels
  apply (grown.sound h).modify
  have outcome := Cell.sound_setOutcome (knownFaults h Label.isLabel) ((s.touch
    (FormulaSheet.evaluate (s.environment Label.isLabel) (s.cellAt slot).formula).labels).cellAt slot)
  rw [grown.formula slot] at outcome
  exact outcome

theorem Sound.evaluateAll {s : Sheet} (h : s.Sound) (labels : List String) :
    (s.evaluateAll labels).sheet.Sound := by
  induction labels generalizing s with
  | nil => exact h
  | cons label rest ih =>
    rw [Sheet.evaluateAll, evaluateCell]
    cases hl : s.locate label with
    | error e => exact h
    | ok r => exact ih (((extends_locate hl).sound h).evaluateSlot r.1)

theorem Sound.recalculate {s : Sheet} (h : s.Sound) : s.recalculate.sheet.Sound :=
  h.evaluateAll s.evaluationOrder

theorem Sound.storeFormula {s : Sheet} (h : s.Sound) (slot : Nat) (tokens : List Token) :
    (s.storeFormula slot tokens).sheet.Sound := by
  have stored : (s.modify slot (Cell.setFormula tokens)).Sound :=
    h.modify ((h slot).setFormula tokens)
  have sheet : (s.storeFormula slot tokens).sheet =
      (s.modify slot (Cell.setFormula tokens)).recalculate.sheet := rfl
  rw [sheet]
  exact stored.recalculate

theorem Sound.setFormula {s : Sheet} (h : s.Sound) (label : String) (input : FormulaInput) :
    (s.setFormula label input).sheet.Sound := by
  unfold Sheet.setFormula
  cases hl : s.locate label with
  | error e => exact h
  | ok r =>
    have located := (extends_locate hl).sound h
    cases input with
    | tokens tokens => exact located.storeFormula r.1 tokens
    | text text =>
      dsimp only
      cases tokenize text with
      | ok tokens => exact located.storeFormula r.1 tokens
      | error failure => exact located

theorem Sound.evaluateCell {s : Sheet} (h : s.Sound) {label : String} {done : Calculated Outcome}
    (evaluated : s.evaluateCell label = .ok done) : done.sheet.Sound := by
  unfold Sheet.evaluateCell at evaluated
  cases hl : s.locate label with
  | error e =>
    rw [hl] at evaluated
    cases evaluated
  | ok r =>
    rw [hl] at evaluated
    cases evaluated
    exact ((extends_locate hl).sound h).evaluateSlot r.1

/-! Where sheets come from. -/

theorem cellAt_empty? {rows columns : Int} {s : Sheet} (h : empty? rows columns = some s) (i : Nat) :
    s.cellAt i = .blank "" := by
  unfold empty? at h
  split at h
  · cases h
    rfl
  · cases h

theorem sound_empty? {rows columns : Int} {s : Sheet} (h : empty? rows columns = some s) :
    s.Sound := by
  intro i
  rw [cellAt_empty? h]
  exact Cell.sound_blank ""

/-- An entry of a table is left out, or its tokens are stored under its label. -/
theorem fill_cases {s t : Sheet} {label v : Value} {rest : List (Value × Value)}
    (filled : Spec.fill s ((label, v) :: rest) = .ok t) :
    (Spec.cellTokens? v = .ok none ∧ Spec.fill s rest = .ok t) ∨
      ∃ tokens slot u, Spec.cellTokens? v = .ok (some tokens) ∧
        s.locate label.display = .ok (slot, u) ∧
          Spec.fill (u.modify slot (Cell.setFormula tokens)) rest = .ok t := by
  rw [Spec.fill] at filled
  cases given : Spec.cellTokens? v with
  | error e =>
    rw [given] at filled
    cases filled
  | ok found =>
    rw [given] at filled
    cases found with
    | none => exact .inl ⟨rfl, filled⟩
    | some tokens =>
      cases located : s.locate label.display with
      | error e =>
        simp only [located] at filled
        cases filled
      | ok r =>
        simp only [located] at filled
        exact .inr ⟨tokens, r.1, r.2, rfl, rfl, filled⟩

/-- What storing tokens under a label keeps holds of a sheet that a table was filled into. -/
theorem fill_keeps {p : Sheet → Prop}
    (stored : ∀ s label slot t tokens, s.locate label = .ok (slot, t) → p s →
      p (t.modify slot (Cell.setFormula tokens)))
    {s t : Sheet} {entries : List (Value × Value)} (h : p s)
    (filled : Spec.fill s entries = .ok t) : p t := by
  induction entries generalizing s with
  | nil =>
    cases filled
    exact h
  | cons e rest ih =>
    rcases fill_cases filled with ⟨_, later⟩ | ⟨tokens, slot, u, _, located, later⟩
    · exact ih h later
    · exact ih (stored _ _ slot u tokens located h) later

/-- A described sheet is one without cells, filled with the table of the cells if there is one. -/
theorem ofSpec_cases {entries : List (Value × Value)} {s : Sheet}
    (described : ofSpec entries = .ok s) :
    ∃ rows columns blank, empty? rows columns = some blank ∧
      match Value.find? "cells" entries with
      | some (.table cells) => Spec.fill blank cells = .ok s
      | _ => s = blank := by
  unfold ofSpec at described
  cases hr : Spec.dimension "n_rows" Spec.defaultRows entries with
  | error e =>
    rw [hr] at described
    cases described
  | ok rows =>
    cases hc : Spec.dimension "n_cols" Spec.defaultColumns entries with
    | error e =>
      rw [hr, hc] at described
      cases described
    | ok columns =>
      rw [hr, hc] at described
      cases new : empty? rows columns with
      | none =>
        simp only [bind, Except.bind, new] at described
        cases described
      | some blank =>
        simp only [bind, Except.bind, new] at described
        refine ⟨rows, columns, blank, new, ?_⟩
        split at described
        · next missing =>
          cases described
          rw [missing]
        · next cells found =>
          rw [found]
          exact described
        · next noTable found =>
          split at described
          · cases described
            rw [found]
            split
            · next cells table => exact absurd (Option.some.inj table) (noTable cells)
            · rfl
          · cases described

/-- What holds of sheets without cells, and is kept where tokens are stored under a label, holds of
every sheet that a table describes. -/
theorem ofSpec_keeps {p : Sheet → Prop}
    (new : ∀ rows columns s, empty? rows columns = some s → p s)
    (stored : ∀ s label slot t tokens, s.locate label = .ok (slot, t) → p s →
      p (t.modify slot (Cell.setFormula tokens)))
    {entries : List (Value × Value)} {s : Sheet} (described : ofSpec entries = .ok s) : p s := by
  obtain ⟨rows, columns, blank, empty, filled⟩ := ofSpec_cases described
  have start := new rows columns blank empty
  split at filled
  · exact fill_keeps stored start filled
  · exact filled ▸ start

theorem sound_ofSpec {entries : List (Value × Value)} {s : Sheet}
    (described : ofSpec entries = .ok s) : s.Sound := by
  refine ofSpec_keeps (fun _ _ _ => sound_empty?) ?_ described
  intro s label slot t tokens located h
  have sound : t.Sound := (extends_locate located).sound h
  exact sound.modify ((sound slot).setFormula tokens)

/-! Whole runs. -/

/-- What can be done with a sheet. -/
inductive Operation
  | lookUp (label : String)
  | lookUpAt (row column : Int)
  | find (label : String)
  | setFormula (label : String) (input : FormulaInput)
  | evaluateCell (label : String)
  | recalculate
  | evaluate (isLabel : Token → Bool) (tokens : List Token)

/-- The sheet behind an operation, which may have been refused. -/
def operate (s : Sheet) : Operation → Sheet
  | .lookUp label => s.lookedUp label
  | .lookUpAt row column => s.lookedUpAt row column
  | .find _ => s
  | .setFormula label input => (s.setFormula label input).sheet
  | .evaluateCell label => ((s.evaluateCell label).map (·.sheet)).toOption.getD s
  | .recalculate => s.recalculate.sheet
  | .evaluate isLabel tokens => (s.evaluate isLabel tokens).2

inductive Reachable : Sheet → Prop
  | empty {rows columns : Int} {s : Sheet} (new : empty? rows columns = some s) : Reachable s
  | described {entries : List (Value × Value)} {s : Sheet} (table : ofSpec entries = .ok s) :
      Reachable s
  | operate {s : Sheet} (reached : Reachable s) (o : Operation) : Reachable (s.operate o)

theorem Sound.operate {s : Sheet} (h : s.Sound) (o : Operation) : (s.operate o).Sound := by
  cases o with
  | lookUp label => exact (s.extends_lookedUp label).sound h
  | lookUpAt row column => exact (s.extends_lookedUpAt row column).sound h
  | find label => exact h
  | setFormula label input => exact h.setFormula label input
  | evaluateCell label =>
    rw [Sheet.operate]
    cases hl : s.evaluateCell label with
    | error e => exact h
    | ok done => exact h.evaluateCell hl
  | recalculate => exact h.recalculate
  | evaluate isLabel tokens => exact (s.extends_touch _).sound h

theorem sound_of_reachable {s : Sheet} (reached : Reachable s) : s.Sound := by
  induction reached with
  | empty new => exact sound_empty? new
  | described table => exact sound_ofSpec table
  | operate _ o ih => exact ih.operate o

/-- Whatever is done to a sheet, a cell without a formula stays blank, no other cell is called
empty, faults are of the known kinds, and a division by zero shows infinity. -/
theorem cell_state {s : Sheet} (reached : Reachable s) {c : Cell} (hc : c ∈ s.cells) :
    (c.formula = [] ↔ c.fault = some .emptyFormula) ∧ (c.formula = [] → c.value = 0.0) ∧
      (c.fault = none ∨ ∃ fault ∈ Fault.kinds, c.fault = some fault) ∧
      (c.fault = some .divideByZero → c.value = 1.0 / 0.0) := by
  have sound := sound_of_mem_cells (sound_of_reachable reached) hc
  refine ⟨sound.unfilled, sound.zero, ?_, sound.infinite⟩
  cases hf : c.fault with
  | none => exact .inl rfl
  | some fault => exact .inr ⟨fault, sound.known fault hf, rfl⟩

/-- A cell that divides itself by nothing is still not called empty. -/
theorem cell_state_of_self_reference :
    Reachable (standard.operate (.setFormula "A1" (.text "=A1 / 0"))) ∧
      ∃ c ∈ (standard.operate (.setFormula "A1" (.text "=A1 / 0"))).cells,
        c.formula = ["A1", "/", "0"] ∧ c.fault ≠ some .emptyFormula ∧
          (c.fault = some .divideByZero → c.value = 1.0 / 0.0) := by
  have own : standard.SelfLabelled := by
    intro k c hc
    cases hc
  have inside : standard.key "A1" = .ok "A1" := key_of_isKey (by decide +kernel)
  have readable : tokenize "=A1 / 0" = .ok ["A1", "/", "0"] := by decide +kernel
  obtain ⟨_, u, stored, sheet⟩ := setFormula_stored own inside readable
  obtain ⟨c, hc, formula⟩ := stored.recalculate.here
  have new : empty? 100 26 = some standard := rfl
  have reached := (Reachable.empty new).operate (.setFormula "A1" (.text "=A1 / 0"))
  have mem : c ∈ (standard.operate (.setFormula "A1" (.text "=A1 / 0"))).cells := by
    rw [operate, sheet]
    exact mem_cells_iff.mpr ⟨_, hc⟩
  obtain ⟨unfilled, _, _, infinite⟩ := cell_state reached mem
  refine ⟨reached, c, mem, formula, ?_, infinite⟩
  intro empty
  rw [unfilled.mpr empty] at formula
  cases formula

end Sheet

end FormulaSheet
