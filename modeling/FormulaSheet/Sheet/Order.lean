import FormulaSheet.Sheet.Basic
/-!
The order in which formulas are evaluated: depth-first from each formula cell in row-major order, a
cell behind the cells that its formula refers to. Every label is entered once, so the search ends on
circular references too; of a cycle no cell can be behind all the others, and the one that was
entered first comes last.
-/

namespace FormulaSheet

/-- Labels and the labels that each of them leads to. -/
structure ReferenceGraph where
  nodes : List String
  next : String → List String
  closed : ∀ l, ∀ d ∈ next l, d ∈ nodes

/-- A label that was entered, and those of its references that were not looked at yet. -/
structure Frame where
  label : String
  pending : List String

/-- A depth-first search under way: the roots to come, the labels entered and not left with the last
one in front, all labels entered so far, and the labels left again in the order of leaving. -/
structure Search (g : ReferenceGraph) where
  roots : List String
  stack : List Frame
  entered : List String
  left : List String
  roots_known : ∀ l ∈ roots, l ∈ g.nodes
  pending_known : ∀ f ∈ stack, ∀ d ∈ f.pending, d ∈ g.nodes

namespace Search

variable {g : ReferenceGraph}

def start (g : ReferenceGraph) (roots : List String) (known : ∀ l ∈ roots, l ∈ g.nodes) :
    Search g :=
  ⟨roots, [], [], [], known, by simp⟩

/-- Enters a label: it is in front now, with all its references to be looked at. -/
def enter (σ : Search g) (l : String) : Search g :=
  { σ with
    stack := ⟨l, g.next l⟩ :: σ.stack
    entered := l :: σ.entered
    pending_known := fun f hf => by
      rcases List.mem_cons.1 hf with rfl | hf
      · exact g.closed l
      · exact σ.pending_known f hf }

/-- One step: look at the next reference of the label in front, leave that label when it has no more
references, or turn to the next root. None when the search is over. -/
def step : Search g → Option (Search g)
  | ⟨[], [], _, _, _, _⟩ => none
  | ⟨r :: roots, [], entered, left, known, pending⟩ =>
    let σ : Search g :=
      ⟨roots, [], entered, left, fun l hl => known l (List.mem_cons_of_mem _ hl), pending⟩
    if entered.contains r then some σ else some (σ.enter r)
  | ⟨roots, ⟨l, []⟩ :: below, entered, left, known, pending⟩ =>
    some ⟨roots, below, entered, left ++ [l], known,
      fun f hf => pending f (List.mem_cons_of_mem _ hf)⟩
  | ⟨roots, ⟨l, d :: ds⟩ :: below, entered, left, known, pending⟩ =>
    let σ : Search g :=
      ⟨roots, ⟨l, ds⟩ :: below, entered, left, known, fun f hf e he => by
        rcases List.mem_cons.1 hf with rfl | hf
        · exact pending _ List.mem_cons_self e (List.mem_cons_of_mem _ he)
        · exact pending f (List.mem_cons_of_mem _ hf) e he⟩
    if entered.contains d then some σ else some (σ.enter d)

/-- What a step can do, in the words of what it finds and what it leaves. -/
inductive Moves (σ τ : Search g) : Prop
  | skipRoot (r : String) (idle : σ.stack = []) (roots : σ.roots = r :: τ.roots)
      (known : r ∈ σ.entered) (stack : τ.stack = []) (entered : τ.entered = σ.entered)
      (left : τ.left = σ.left)
  | enterRoot (r : String) (idle : σ.stack = []) (roots : σ.roots = r :: τ.roots)
      (fresh : r ∉ σ.entered) (stack : τ.stack = [⟨r, g.next r⟩])
      (entered : τ.entered = r :: σ.entered) (left : τ.left = σ.left)
  | leave (l : String) (front : σ.stack = ⟨l, []⟩ :: τ.stack) (roots : τ.roots = σ.roots)
      (entered : τ.entered = σ.entered) (left : τ.left = σ.left ++ [l])
  | skipReference (l d : String) (ds : List String) (below : List Frame)
      (front : σ.stack = ⟨l, d :: ds⟩ :: below) (known : d ∈ σ.entered)
      (stack : τ.stack = ⟨l, ds⟩ :: below) (roots : τ.roots = σ.roots)
      (entered : τ.entered = σ.entered) (left : τ.left = σ.left)
  | enterReference (l d : String) (ds : List String) (below : List Frame)
      (front : σ.stack = ⟨l, d :: ds⟩ :: below) (fresh : d ∉ σ.entered)
      (stack : τ.stack = ⟨d, g.next d⟩ :: ⟨l, ds⟩ :: below) (roots : τ.roots = σ.roots)
      (entered : τ.entered = d :: σ.entered) (left : τ.left = σ.left)

theorem moves_of_step {σ τ : Search g} (h : σ.step = some τ) : Moves σ τ := by
  unfold step at h
  split at h
  · cases h
  · rename_i r roots entered left known pending
    dsimp only at h
    split at h
    · rename_i hr
      cases h
      exact .skipRoot r rfl rfl (by simpa using hr) rfl rfl rfl
    · rename_i hr
      cases h
      exact .enterRoot r rfl rfl (by simpa using hr) rfl rfl rfl
  · rename_i roots l below entered left known pending
    cases h
    exact .leave l rfl rfl rfl rfl
  · rename_i roots l d ds below entered left known pending
    dsimp only at h
    split at h
    · rename_i hd
      cases h
      exact .skipReference l d ds below rfl (by simpa using hd) rfl rfl rfl rfl
    · rename_i hd
      cases h
      exact .enterReference l d ds below rfl (by simpa using hd) rfl rfl rfl rfl

theorem step_eq_none {σ : Search g} (h : σ.step = none) : σ.roots = [] ∧ σ.stack = [] := by
  unfold step at h
  split at h
  · exact ⟨rfl, rfl⟩
  · dsimp only at h
    split at h <;> cases h
  · cases h
  · dsimp only at h
    split at h <;> cases h

/-- How many nodes have not been entered. -/
def unentered (σ : Search g) : Nat := g.nodes.countP fun l => !σ.entered.contains l

/-- How many roots, labels and references the search still has before it without entering more. -/
def backlog (σ : Search g) : Nat :=
  σ.stack.foldr (fun f n => f.pending.length + 1 + n) σ.roots.length

theorem countP_lt_of_mem {α : Type} {p q : α → Bool} {l : List α} {x : α} (hx : x ∈ l)
    (hp : p x = false) (hq : q x = true) (h : ∀ y, p y = true → q y = true) :
    l.countP p < l.countP q := by
  induction l with
  | nil => cases hx
  | cons a rest ih =>
    have le : rest.countP p ≤ rest.countP q := List.countP_mono_left fun y _ => h y
    rw [List.countP_cons, List.countP_cons]
    rcases List.mem_cons.1 hx with rfl | hx
    · simp only [hp, hq, if_true, Bool.false_eq_true, if_false]
      omega
    · have lt := ih hx
      have step : (if p a then 1 else 0) ≤ if q a then 1 else 0 := by
        split
        · simp [h a (by assumption)]
        · exact Nat.zero_le _
      omega

theorem unentered_lt {σ τ : Search g} {l : String} (known : l ∈ g.nodes) (fresh : l ∉ σ.entered)
    (entered : τ.entered = l :: σ.entered) : τ.unentered < σ.unentered := by
  unfold unentered
  rw [entered]
  refine countP_lt_of_mem known (by simp) (by simpa using fresh) ?_
  intro y hy
  simp_all

/-- A step enters a node, or it shortens the backlog. -/
theorem step_lt {σ τ : Search g} (h : σ.step = some τ) :
    Prod.Lex (· < ·) (· < ·) (τ.unentered, τ.backlog) (σ.unentered, σ.backlog) := by
  cases moves_of_step h with
  | skipRoot r idle roots known stack entered left =>
    have same : τ.unentered = σ.unentered := by rw [unentered, unentered, entered]
    rw [same]
    refine .right _ ?_
    simp [backlog, idle, roots, stack]
  | enterRoot r idle roots fresh stack entered left =>
    have node : r ∈ g.nodes := σ.roots_known r (by rw [roots]; exact List.mem_cons_self)
    exact .left _ _ (unentered_lt node fresh entered)
  | leave l front roots entered left =>
    have same : τ.unentered = σ.unentered := by rw [unentered, unentered, entered]
    rw [same]
    refine .right _ ?_
    simp [backlog, front, roots]
  | skipReference l d ds below front known stack roots entered left =>
    have same : τ.unentered = σ.unentered := by rw [unentered, unentered, entered]
    rw [same]
    refine .right _ ?_
    simp only [backlog, front, stack, roots, List.foldr_cons, List.length_cons]
    omega
  | enterReference l d ds below front fresh stack roots entered left =>
    have node : d ∈ g.nodes :=
      σ.pending_known ⟨l, d :: ds⟩ (by rw [front]; exact List.mem_cons_self) d
        List.mem_cons_self
    exact .left _ _ (unentered_lt node fresh entered)

/-- Steps until the search is over. -/
def run (σ : Search g) : Search g :=
  match _h : σ.step with
  | none => σ
  | some τ => τ.run
termination_by (σ.unentered, σ.backlog)
decreasing_by exact step_lt _h

end Search

namespace Sheet

/-- The labels that the formula of a label refers to. -/
def references (s : Sheet) (label : String) : List String :=
  ((s.find? label).map Cell.dependencies).getD []

/-- All labels of the pool's formulas. -/
def mentioned (s : Sheet) : List String := s.pool.toList.flatMap Cell.dependencies

theorem references_subset_mentioned (s : Sheet) (label : String) :
    s.references label ⊆ s.mentioned := by
  intro d hd
  simp only [references, find?, cell?] at hd
  cases hk : s.keys.lookup (Text.upper label) with
  | none => simp [hk] at hd
  | some slot =>
    simp only [hk, Option.map_some, Option.getD_some, cellAt] at hd
    by_cases hs : slot < s.pool.size
    · rw [mentioned, List.mem_flatMap]
      refine ⟨s.pool[slot], by simp, ?_⟩
      simpa [Array.getD, hs] using hd
    · simp [Array.getD, hs, Cell.blank, Cell.dependencies] at hd

def graph (s : Sheet) : ReferenceGraph where
  nodes := s.labelsWithFormulas ++ s.mentioned
  next := s.references
  closed l _ hd := List.mem_append_right _ (s.references_subset_mentioned l hd)

/-- Whether the label leads to a cell with a formula. -/
def hasFormula (s : Sheet) (label : String) : Bool :=
  ((s.find? label).map Cell.isFilled).getD false

/-- The search before its first step, with the formula cells as roots. -/
def search (s : Sheet) : Search s.graph :=
  .start s.graph s.labelsWithFormulas fun _ h => List.mem_append_left _ h

/-- The labels to evaluate, in order. -/
def evaluationOrder (s : Sheet) : List String := s.search.run.left.filter s.hasFormula

end Sheet

end FormulaSheet
