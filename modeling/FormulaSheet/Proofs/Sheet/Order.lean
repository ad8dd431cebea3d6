import FormulaSheet.Proofs.Sheet.Search
import FormulaSheet.Proofs.Sheet.Store
import Mathlib.Data.List.Nodup
/-!
The evaluation order. It is a permutation of the labels with formulas, and a formula stands behind
each formula it refers to unless the two lie on a common circle; without circles the order is
topological.
-/

namespace FormulaSheet.Sheet

/-- The formula under the first label refers to the second label. -/
def DependsOn (s : Sheet) (x d : String) : Prop := ∃ c, s.cell? x = some c ∧ d ∈ c.dependencies

theorem references_of_cell? {s : Sheet} {x : String} {c : Cell} (h : s.cell? x = some c) :
    s.references x = c.dependencies := by
  rw [references, find?_of_cell? h]
  rfl

theorem hasFormula_of_cell? {s : Sheet} {x : String} {c : Cell} (h : s.cell? x = some c) :
    s.hasFormula x = c.isFilled := by
  rw [hasFormula, find?_of_cell? h]
  rfl

theorem mem_dependencies_iff {c : Cell} {d : String} :
    d ∈ c.dependencies ↔ d ∈ c.formula ∧ Label.isLabel d = true := by
  rw [Cell.dependencies, List.mem_eraseDups]
  exact List.mem_filter

theorem isLabel_of_mem_dependencies {c : Cell} {d : String} (h : d ∈ c.dependencies) :
    Label.isLabel d = true :=
  (mem_dependencies_iff.mp h).2

theorem isLabel_of_mem_mentioned {s : Sheet} {d : String} (h : d ∈ s.mentioned) :
    Label.isLabel d = true := by
  obtain ⟨c, _, hd⟩ := List.mem_flatMap.mp h
  exact isLabel_of_mem_dependencies hd

theorem isLabel_of_dependsOn {s : Sheet} {x d : String} (h : s.DependsOn x d) :
    Label.isLabel d = true := by
  obtain ⟨c, _, hd⟩ := h
  exact isLabel_of_mem_dependencies hd

theorem mem_references_of_dependsOn {s : Sheet} {x d : String} (h : s.DependsOn x d) :
    d ∈ s.references x := by
  obtain ⟨c, hc, hd⟩ := h
  rw [references_of_cell? hc]
  exact hd

theorem dependsOn_of_mem_references {s : Sheet} {x d : String} (label : Label.isLabel x = true)
    (h : d ∈ s.references x) : s.DependsOn x d := by
  rw [references, find?_of_isLabel label] at h
  cases hc : s.cell? x with
  | none =>
    rw [hc] at h
    cases h
  | some c =>
    rw [hc] at h
    exact ⟨c, hc, h⟩

theorem dependsOn_of_reaches {s : Sheet} {a b : String} (label : Label.isLabel a = true)
    (h : s.graph.Reaches a b) : Relation.TransGen s.DependsOn a b := by
  induction h using Relation.TransGen.head_induction_on with
  | single led => exact .single (dependsOn_of_mem_references label led)
  | head led _ ih =>
    have first := dependsOn_of_mem_references label led
    exact .head first (ih (isLabel_of_dependsOn first))

/-! The labels with formulas. -/

theorem lookup_of_mem_keys {s : Sheet} {e : String × Nat} (h : e ∈ s.keys) :
    s.keys.lookup e.1 = some e.2 := by
  cases hl : s.keys.lookup e.1 with
  | none =>
    rw [List.lookup_eq_none_iff] at hl
    have differs := hl e h
    simp at differs
  | some i =>
    have mem := mem_keys_of_lookup hl
    have same := List.inj_on_of_nodup_map s.distinct mem h rfl
    rw [← same]

theorem SelfLabelled.label_of_mem_keys {s : Sheet} (own : s.SelfLabelled) {e : String × Nat}
    (h : e ∈ s.keys) : (s.cellAt e.2).label = e.1 :=
  own e.1 _ (cell?_eq_some_iff.mpr ⟨e.2, lookup_of_mem_keys h, rfl⟩)

theorem sortedKeys_perm (s : Sheet) : s.sortedKeys.Perm s.keys := List.mergeSort_perm _ _

theorem mem_cells_iff {s : Sheet} {c : Cell} : c ∈ s.cells ↔ ∃ k, s.cell? k = some c := by
  simp only [cells, entries, List.map_map, List.mem_map]
  constructor
  · rintro ⟨e, he, rfl⟩
    have known := lookup_of_mem_keys ((sortedKeys_perm s).mem_iff.mp he)
    exact ⟨e.1, cell?_eq_some_iff.mpr ⟨e.2, known, rfl⟩⟩
  · rintro ⟨k, hc⟩
    obtain ⟨slot, hs, rfl⟩ := cell?_eq_some_iff.mp hc
    exact ⟨(k, slot), (sortedKeys_perm s).mem_iff.mpr (mem_keys_of_lookup hs), rfl⟩

theorem labelsWithFormulas_eq {s : Sheet} (own : s.SelfLabelled) :
    s.labelsWithFormulas =
      (s.sortedKeys.filter fun e => (s.cellAt e.2).isFilled).map (·.1) := by
  simp only [labelsWithFormulas, cells, entries, List.map_map, List.filter_map]
  apply List.map_congr_left
  intro e he
  exact own.label_of_mem_keys ((sortedKeys_perm s).mem_iff.mp (List.mem_filter.mp he).1)

theorem nodup_labelsWithFormulas {s : Sheet} (own : s.SelfLabelled) :
    s.labelsWithFormulas.Nodup := by
  have sorted : (s.sortedKeys.map (·.1)).Nodup :=
    ((sortedKeys_perm s).map _).nodup_iff.mpr s.distinct
  rw [labelsWithFormulas_eq own]
  exact sorted.sublist (List.filter_sublist.map _)

theorem mem_labelsWithFormulas {s : Sheet} (own : s.SelfLabelled) {l : String} :
    l ∈ s.labelsWithFormulas ↔ ∃ c, s.cell? l = some c ∧ c.isFilled = true := by
  rw [labelsWithFormulas_eq own, List.mem_map]
  constructor
  · rintro ⟨e, he, rfl⟩
    obtain ⟨mem, filled⟩ := List.mem_filter.mp he
    have known := (sortedKeys_perm s).mem_iff.mp mem
    exact ⟨_, cell?_eq_some_iff.mpr ⟨e.2, lookup_of_mem_keys known, rfl⟩, filled⟩
  · rintro ⟨c, hc, filled⟩
    obtain ⟨slot, hs, rfl⟩ := cell?_eq_some_iff.mp hc
    have mem := (sortedKeys_perm s).mem_iff.mpr (mem_keys_of_lookup hs)
    exact ⟨(l, slot), List.mem_filter.mpr ⟨mem, filled⟩, rfl⟩

/-! The search at its end. -/

theorem search_coherent (s : Sheet) : s.search.run.Coherent s.labelsWithFormulas :=
  Search.run_coherent (Search.start_coherent _ _)

theorem nodup_left (s : Sheet) : s.search.run.left.Nodup :=
  s.search_coherent.distinct.of_append_right

theorem mem_entered_iff (s : Sheet) (l : String) :
    l ∈ s.search.run.entered ↔ l ∈ s.search.run.left := by
  have ended := (Search.ends_run s.search).roots_stack
  rw [s.search_coherent.entered, Search.labels, ended.2]
  simp

theorem mem_left_of_mem_labelsWithFormulas {s : Sheet} {l : String}
    (h : l ∈ s.labelsWithFormulas) : l ∈ s.search.run.left := by
  have ended := (Search.ends_run s.search).roots_stack
  rcases s.search_coherent.roots l h with entered | root
  · exact (mem_entered_iff s l).mp entered
  · rw [ended.1] at root
    cases root

theorem mem_evaluationOrder {s : Sheet} (own : s.SelfLabelled) {l : String} :
    l ∈ s.evaluationOrder ↔ l ∈ s.labelsWithFormulas := by
  rw [evaluationOrder, List.mem_filter]
  constructor
  · rintro ⟨left, filled⟩
    rcases List.mem_append.mp (s.search_coherent.nodes l ((mem_entered_iff s l).mpr left)) with
      root | named
    · exact root
    · rw [hasFormula, find?_of_isLabel (isLabel_of_mem_mentioned named)] at filled
      cases hc : s.cell? l with
      | none =>
        rw [hc] at filled
        cases filled
      | some c =>
        rw [hc] at filled
        exact (mem_labelsWithFormulas own).mpr ⟨c, hc, filled⟩
  · intro root
    obtain ⟨c, hc, filled⟩ := (mem_labelsWithFormulas own).mp root
    exact ⟨mem_left_of_mem_labelsWithFormulas root, (hasFormula_of_cell? hc).trans filled⟩

theorem mem_evaluationOrder_iff {s : Sheet} (own : s.SelfLabelled) {l : String} :
    l ∈ s.evaluationOrder ↔ ∃ c, s.cell? l = some c ∧ c.isFilled = true := by
  rw [mem_evaluationOrder own, mem_labelsWithFormulas own]

theorem nodup_evaluationOrder (s : Sheet) : s.evaluationOrder.Nodup :=
  s.nodup_left.filter _

theorem evaluationOrder_perm {s : Sheet} (own : s.SelfLabelled) :
    s.evaluationOrder.Perm s.labelsWithFormulas := by
  rw [List.perm_ext_iff_of_nodup s.nodup_evaluationOrder (nodup_labelsWithFormulas own)]
  exact fun l => mem_evaluationOrder own

/-- Formulas that refer to nothing are evaluated in row-major order. -/
theorem evaluationOrder_of_unreferring {s : Sheet} (own : s.SelfLabelled)
    (nowhere : ∀ l, s.references l = []) : s.evaluationOrder = s.labelsWithFormulas := by
  have left : s.search.run.left = s.labelsWithFormulas :=
    Search.left_run_of_unreferring nowhere (by simp [search, Search.start])
      (nodup_labelsWithFormulas own) (by simp [search, Search.start])
  rw [evaluationOrder, left, List.filter_eq_self]
  intro l hl
  exact (List.mem_filter.mp ((evaluationOrder_perm own).mem_iff.mpr hl)).2

theorem idxOf_filter_lt {p : String → Bool} {d x : String} {labels : List String}
    (hd : p d = true) (hx : p x = true) (h : labels.idxOf d < labels.idxOf x) :
    (labels.filter p).idxOf d < (labels.filter p).idxOf x := by
  induction labels with
  | nil => exact absurd h (Nat.lt_irrefl _)
  | cons a rest ih =>
    have distinct : a ≠ x := by
      rintro rfl
      rw [List.idxOf_cons_self] at h
      exact Nat.not_lt_zero _ h
    by_cases first : a = d
    · subst first
      rw [List.filter_cons_of_pos hd, List.idxOf_cons_self, List.idxOf_cons_ne _ distinct]
      exact Nat.succ_pos _
    · rw [List.idxOf_cons_ne _ first, List.idxOf_cons_ne _ distinct] at h
      have later := ih (Nat.lt_of_succ_lt_succ h)
      by_cases kept : p a = true
      · rw [List.filter_cons_of_pos kept, List.idxOf_cons_ne _ first, List.idxOf_cons_ne _ distinct]
        exact Nat.succ_lt_succ later
      · rw [List.filter_cons_of_neg kept]
        exact later

theorem before_or_depends {s : Sheet} {x d : String} (hx : x ∈ s.evaluationOrder)
    (refers : s.DependsOn x d) (hd : s.hasFormula d = true) :
    s.evaluationOrder.idxOf d < s.evaluationOrder.idxOf x ∨
      Relation.TransGen s.DependsOn d x := by
  obtain ⟨left, filled⟩ := List.mem_filter.mp hx
  rcases s.search_coherent.behind x left d (mem_references_of_dependsOn refers) with before | back
  · exact .inl (idxOf_filter_lt hd filled before)
  · exact .inr (dependsOn_of_reaches (isLabel_of_dependsOn refers) back)

theorem filled_of_mem_dependencies {c : Cell} {d : String} (h : d ∈ c.dependencies) :
    c.isFilled = true := by
  cases hf : c.formula with
  | nil =>
    rw [Cell.dependencies, hf] at h
    cases h
  | cons t rest =>
    rw [Cell.isFilled, hf]
    rfl

/-- Formulas come behind the formulas they refer to, up to circles. -/
theorem dependencies_first {s : Sheet} (own : s.SelfLabelled) :
    s.evaluationOrder.Nodup ∧
      (∀ x c d e, s.cell? x = some c → d ∈ c.dependencies → s.cell? d = some e →
        e.isFilled = true →
        x ∈ s.evaluationOrder ∧ d ∈ s.evaluationOrder ∧
          (s.evaluationOrder.idxOf d < s.evaluationOrder.idxOf x ∨
            Relation.TransGen s.DependsOn d x)) ∧
      ((∀ y, ¬ Relation.TransGen s.DependsOn y y) →
        ∀ x c d e, s.cell? x = some c → d ∈ c.dependencies → s.cell? d = some e →
          e.isFilled = true → s.evaluationOrder.idxOf d < s.evaluationOrder.idxOf x) := by
  have upToCircles : ∀ x c d e, s.cell? x = some c → d ∈ c.dependencies → s.cell? d = some e →
      e.isFilled = true →
      x ∈ s.evaluationOrder ∧ d ∈ s.evaluationOrder ∧
        (s.evaluationOrder.idxOf d < s.evaluationOrder.idxOf x ∨
          Relation.TransGen s.DependsOn d x) := by
    intro x c d e hc hd he filled
    have hx : x ∈ s.evaluationOrder :=
      (mem_evaluationOrder_iff own).mpr ⟨c, hc, filled_of_mem_dependencies hd⟩
    have behind : d ∈ s.evaluationOrder :=
      (mem_evaluationOrder_iff own).mpr ⟨e, he, filled⟩
    exact ⟨hx, behind, before_or_depends hx ⟨c, hc, hd⟩ ((hasFormula_of_cell? he).trans filled)⟩
  refine ⟨s.nodup_evaluationOrder, upToCircles, ?_⟩
  intro acyclic x c d e hc hd he filled
  rcases (upToCircles x c d e hc hd he filled).2.2 with before | back
  · exact before
  · exact absurd (.head ⟨c, hc, hd⟩ back) (acyclic x)

/-- Two formulas on a circle, A1 and B2, and two aside of it. B1 carries an outcome of old. -/
def circle : Sheet where
  rows := 2
  columns := 2
  keys := [("B1", 0), ("A1", 1), ("B2", 2), ("A2", 3)]
  pool := #[{ label := "B1", formula := ["A2", "*", "3"], value := 7.0, fault := some .invalidCell },
    { label := "A1", formula := ["B1", "+", "B2"], fault := none },
    { label := "B2", formula := ["A1"], value := 4.0, fault := none },
    { label := "A2", formula := ["2"], fault := none }]
  rows_pos := by decide
  columns_pos := by decide
  stored := by decide
  inside := by decide
  distinct := by decide

theorem circle_selfLabelled : circle.SelfLabelled := by
  intro k c hc
  obtain ⟨slot, hs, rfl⟩ := cell?_eq_some_iff.mp hc
  have mem := mem_keys_of_lookup hs
  simp only [circle, List.mem_cons, Prod.mk.injEq, List.not_mem_nil, or_false] at mem
  rcases mem with ⟨rfl, rfl⟩ | ⟨rfl, rfl⟩ | ⟨rfl, rfl⟩ | ⟨rfl, rfl⟩
  all_goals rfl

/-- A formula that refers to another one, stored in front of it. -/
def chain : Sheet where
  rows := 1
  columns := 2
  keys := [("A1", 0), ("B1", 1)]
  pool := #[{ label := "A1", formula := ["B1", "*", "2"], fault := none },
    { label := "B1", formula := ["1"], fault := none }]
  rows_pos := by decide
  columns_pos := by decide
  stored := by decide
  inside := by decide
  distinct := by decide

theorem chain_keys {k : String} {c : Cell} (h : chain.cell? k = some c) :
    (k = "A1" ∧ c = chain.cellAt 0) ∨ (k = "B1" ∧ c = chain.cellAt 1) := by
  obtain ⟨slot, hs, rfl⟩ := cell?_eq_some_iff.mp h
  have mem := mem_keys_of_lookup hs
  simp only [chain, List.mem_cons, Prod.mk.injEq, List.not_mem_nil, or_false] at mem
  rcases mem with ⟨rfl, rfl⟩ | ⟨rfl, rfl⟩
  · exact .inl ⟨rfl, rfl⟩
  · exact .inr ⟨rfl, rfl⟩

theorem chain_selfLabelled : chain.SelfLabelled := by
  intro k c hc
  rcases chain_keys hc with ⟨rfl, rfl⟩ | ⟨rfl, rfl⟩
  · rfl
  · rfl

theorem chain_dependsOn {x d : String} (h : chain.DependsOn x d) : x = "A1" ∧ d = "B1" := by
  obtain ⟨c, hc, hd⟩ := h
  rcases chain_keys hc with ⟨rfl, rfl⟩ | ⟨rfl, rfl⟩
  · have only : (chain.cellAt 0).dependencies = ["B1"] := by decide
    rw [only, List.mem_singleton] at hd
    exact ⟨rfl, hd⟩
  · have none : (chain.cellAt 1).dependencies = [] := by decide
    rw [none] at hd
    cases hd

theorem chain_acyclic (y : String) : ¬ Relation.TransGen chain.DependsOn y y := by
  intro h
  obtain ⟨_, first, _⟩ := Relation.TransGen.head'_iff.mp h
  obtain ⟨_, _, last⟩ := Relation.TransGen.tail'_iff.mp h
  have start := (chain_dependsOn first).1
  rw [(chain_dependsOn last).2] at start
  exact absurd start (by decide)

theorem dependencies_first_on_samples :
    ("A1" ∈ circle.evaluationOrder ∧ "B2" ∈ circle.evaluationOrder ∧
      (circle.evaluationOrder.idxOf "B2" < circle.evaluationOrder.idxOf "A1" ∨
        Relation.TransGen circle.DependsOn "B2" "A1")) ∧
      chain.evaluationOrder.idxOf "B1" < chain.evaluationOrder.idxOf "A1" :=
  ⟨(dependencies_first circle_selfLabelled).2.1 "A1" (circle.cellAt 1) "B2" (circle.cellAt 2) rfl
      (by decide) rfl rfl,
    (dependencies_first chain_selfLabelled).2.2 chain_acyclic "A1" (chain.cellAt 0) "B1"
      (chain.cellAt 1) rfl (by decide) rfl rfl⟩

end FormulaSheet.Sheet
