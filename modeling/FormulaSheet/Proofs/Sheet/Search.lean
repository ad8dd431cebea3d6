import FormulaSheet.Sheet.Order
import Mathlib.Data.List.Basic
import Mathlib.Logic.Relation
/-!
The depth-first search over references. Between steps the labels on the stack form a path, every
entered label is on the stack or left, and of the references of a label that was left each one was
left earlier or leads back to it. The search ends from every state, so at its end this holds of all
labels that were entered.
-/

namespace FormulaSheet

def ReferenceGraph.Leads (g : ReferenceGraph) (a b : String) : Prop := b ∈ g.next a

abbrev ReferenceGraph.Reaches (g : ReferenceGraph) : String → String → Prop :=
  Relation.TransGen g.Leads

namespace Search

variable {g : ReferenceGraph}

/-- The labels on the stack, the last entered in front. -/
def labels (σ : Search g) : List String := σ.stack.map Frame.label

/-- What holds between any two steps of a search that began with the given roots. -/
structure Coherent (roots : List String) (σ : Search g) : Prop where
  path : σ.labels.Pairwise fun upper lower => g.Reaches lower upper
  pending : ∀ f ∈ σ.stack, f.pending ⊆ g.next f.label
  looked : ∀ f ∈ σ.stack, ∀ d ∈ g.next f.label, d ∈ σ.entered ∨ d ∈ f.pending
  distinct : (σ.labels ++ σ.left).Nodup
  entered : ∀ l, l ∈ σ.entered ↔ l ∈ σ.labels ∨ l ∈ σ.left
  nodes : ∀ l ∈ σ.entered, l ∈ g.nodes
  roots : ∀ l ∈ roots, l ∈ σ.entered ∨ l ∈ σ.roots
  behind : ∀ x ∈ σ.left, ∀ d ∈ g.next x, σ.left.idxOf d < σ.left.idxOf x ∨ g.Reaches d x

theorem start_coherent (roots : List String) (known : ∀ l ∈ roots, l ∈ g.nodes) :
    Coherent roots (start g roots known) := by
  constructor
  · exact List.Pairwise.nil
  · intro f hf
    cases hf
  · intro f hf
    cases hf
  · exact List.nodup_nil
  · intro l
    simp [start, labels]
  · intro l hl
    cases hl
  · exact fun l hl => .inr hl
  · intro x hx
    cases hx

theorem idxOf_lt_append {left : List String} {d x l : String} (hx : x ∈ left)
    (h : left.idxOf d < left.idxOf x) : (left ++ [l]).idxOf d < (left ++ [l]).idxOf x := by
  have hd : d ∈ left := by
    rw [← List.idxOf_lt_length_iff]
    exact Nat.lt_trans h (List.idxOf_lt_length_of_mem hx)
  rw [List.idxOf_append_of_mem hd, List.idxOf_append_of_mem hx]
  exact h

theorem idxOf_lt_left {left : List String} {d l : String} (hd : d ∈ left) (hl : l ∉ left) :
    (left ++ [l]).idxOf d < (left ++ [l]).idxOf l := by
  rw [List.idxOf_append_of_mem hd, List.idxOf_append_of_notMem hl]
  have lt := List.idxOf_lt_length_of_mem hd
  omega

/-- The frame `f` is what is left of the frame `e` when only entered references are taken off it. -/
structure Narrows (entered : List String) (e f : Frame) : Prop where
  label : f.label = e.label
  pending : f.pending ⊆ e.pending
  taken : ∀ d ∈ e.pending, d ∈ entered ∨ d ∈ f.pending

theorem Narrows.tail {entered : List String} {d : String} (l : String) (ds : List String)
    (known : d ∈ entered) : Narrows entered ⟨l, d :: ds⟩ ⟨l, ds⟩ := by
  refine ⟨rfl, List.subset_cons_self d ds, ?_⟩
  intro m hm
  rcases List.mem_cons.mp hm with rfl | hm
  · exact .inl known
  · exact .inr hm

theorem Narrows.refl (entered : List String) (f : Frame) : Narrows entered f f :=
  ⟨rfl, fun _ hd => hd, fun _ hd => .inr hd⟩

theorem Narrows.looked {g : ReferenceGraph} {entered more : List String} {e f : Frame}
    (h : Narrows more e f) (grown : entered ⊆ more)
    (looked : ∀ d ∈ g.next e.label, d ∈ entered ∨ d ∈ e.pending) :
    ∀ d ∈ g.next f.label, d ∈ more ∨ d ∈ f.pending := by
  intro d hd
  rw [h.label] at hd
  rcases looked d hd with hd | hd
  · exact .inl (grown hd)
  · exact h.taken d hd

theorem Narrows.within {g : ReferenceGraph} {entered : List String} {e f : Frame}
    (h : Narrows entered e f) (pending : e.pending ⊆ g.next e.label) :
    f.pending ⊆ g.next f.label := by
  rw [h.label]
  exact fun d hd => pending (h.pending hd)

theorem skip_coherent {roots : List String} {σ τ : Search g} (h : Coherent roots σ)
    (labels : τ.labels = σ.labels) (entered : τ.entered = σ.entered) (left : τ.left = σ.left)
    (frames : ∀ f ∈ τ.stack, ∃ e ∈ σ.stack, Narrows σ.entered e f)
    (taken : ∀ r ∈ σ.roots, r ∈ σ.entered ∨ r ∈ τ.roots) : Coherent roots τ := by
  constructor
  · rw [labels]
    exact h.path
  · intro f hf
    obtain ⟨e, he, narrow⟩ := frames f hf
    exact narrow.within (h.pending e he)
  · intro f hf
    rw [entered]
    obtain ⟨e, he, narrow⟩ := frames f hf
    exact narrow.looked (fun _ hd => hd) (h.looked e he)
  · rw [labels, left]
    exact h.distinct
  · rw [labels, left, entered]
    exact h.entered
  · rw [entered]
    exact h.nodes
  · intro r hr
    rw [entered]
    rcases h.roots r hr with hr | hr
    · exact .inl hr
    · exact taken r hr
  · rw [left]
    exact h.behind

/-- Entering a fresh label that every label on the stack reaches. -/
theorem enter_coherent {roots : List String} {σ τ : Search g} (h : Coherent roots σ) {l : String}
    (node : l ∈ g.nodes) (fresh : l ∉ σ.entered) (reached : ∀ m ∈ σ.labels, g.Reaches m l)
    (labels : τ.labels = l :: σ.labels) (entered : τ.entered = l :: σ.entered)
    (left : τ.left = σ.left)
    (frames : ∀ f ∈ τ.stack, f = ⟨l, g.next l⟩ ∨ ∃ e ∈ σ.stack, Narrows τ.entered e f)
    (taken : ∀ r ∈ σ.roots, r ∈ τ.entered ∨ r ∈ τ.roots) : Coherent roots τ := by
  have off : l ∉ σ.labels ∧ l ∉ σ.left := by
    rw [h.entered] at fresh
    exact not_or.mp fresh
  have grown : σ.entered ⊆ τ.entered := by
    rw [entered]
    exact List.subset_cons_self _ _
  constructor
  · rw [labels]
    exact List.Pairwise.cons reached h.path
  · intro f hf
    rcases frames f hf with rfl | ⟨e, he, narrow⟩
    · exact fun d hd => hd
    · exact narrow.within (h.pending e he)
  · intro f hf
    rcases frames f hf with rfl | ⟨e, he, narrow⟩
    · exact fun d hd => .inr hd
    · exact narrow.looked grown (h.looked e he)
  · rw [labels, left, List.cons_append]
    exact List.nodup_cons.mpr ⟨by simp [off], h.distinct⟩
  · intro m
    simp only [labels, left, entered, List.mem_cons, h.entered, or_assoc]
  · intro m hm
    rw [entered] at hm
    rcases List.mem_cons.mp hm with rfl | hm
    · exact node
    · exact h.nodes m hm
  · intro r hr
    rcases h.roots r hr with hr | hr
    · exact .inl (grown hr)
    · exact taken r hr
  · rw [left]
    exact h.behind

/-- When all references of the label in front were looked at, each was left or leads back. -/
theorem left_or_reaches {roots : List String} {σ : Search g} (h : Coherent roots σ) {l : String}
    {below : List Frame} (front : σ.stack = ⟨l, []⟩ :: below) {d : String} (hd : d ∈ g.next l) :
    d ∈ σ.left ∨ g.Reaches d l := by
  have path : (l :: below.map Frame.label).Pairwise fun upper lower => g.Reaches lower upper := by
    have p := h.path
    rwa [labels, front] at p
  have looked : d ∈ σ.entered := by
    rcases h.looked ⟨l, []⟩ (by rw [front]; exact List.mem_cons_self) d hd with hd | hd
    · exact hd
    · cases hd
  rcases (h.entered d).mp looked with on | off
  · rw [labels, front] at on
    rcases List.mem_cons.mp on with rfl | on
    · exact .inr (.single hd)
    · exact .inr ((List.pairwise_cons.mp path).1 d on)
  · exact .inl off

theorem leave_coherent {roots : List String} {σ τ : Search g} (h : Coherent roots σ) {l : String}
    (front : σ.stack = ⟨l, []⟩ :: τ.stack) (same : τ.roots = σ.roots)
    (entered : τ.entered = σ.entered) (left : τ.left = σ.left ++ [l]) : Coherent roots τ := by
  have labels : σ.labels = l :: τ.labels := by simp only [Search.labels, front, List.map_cons]
  have distinct : (l :: (τ.labels ++ σ.left)).Nodup := by
    have d := h.distinct
    rwa [labels, List.cons_append] at d
  have below : ∀ f ∈ τ.stack, f ∈ σ.stack := by
    intro f hf
    rw [front]
    exact List.mem_cons_of_mem _ hf
  constructor
  · have p := h.path
    rw [labels] at p
    exact (List.pairwise_cons.mp p).2
  · exact fun f hf => h.pending f (below f hf)
  · intro f hf
    rw [entered]
    exact h.looked f (below f hf)
  · rw [left, ← List.append_assoc]
    exact (List.perm_append_singleton l _).nodup_iff.mpr distinct
  · intro m
    simp only [left, entered, h.entered, labels, List.mem_cons, List.mem_append, List.not_mem_nil,
      or_false]
    tauto
  · rw [entered]
    exact h.nodes
  · rw [entered, same]
    exact h.roots
  · have fresh : l ∉ σ.left := fun hl =>
      (List.nodup_cons.mp distinct).1 (List.mem_append_right _ hl)
    rw [left]
    intro x hx d hd
    rcases List.mem_append.mp hx with hx | hx
    · rcases h.behind x hx d hd with before | back
      · exact .inl (idxOf_lt_append hx before)
      · exact .inr back
    · obtain rfl := List.mem_singleton.mp hx
      rcases left_or_reaches h front hd with before | back
      · exact .inl (idxOf_lt_left before fresh)
      · exact .inr back

theorem step_coherent {roots : List String} {σ τ : Search g} (h : Coherent roots σ)
    (stepped : σ.step = some τ) : Coherent roots τ := by
  cases moves_of_step stepped with
  | skipRoot r idle next known stack entered left =>
    apply skip_coherent h _ entered left
    · intro f hf
      rw [stack] at hf
      cases hf
    · intro m hm
      rw [next] at hm
      rcases List.mem_cons.mp hm with rfl | hm
      · exact .inl known
      · exact .inr hm
    · simp only [labels, idle, stack]
  | enterRoot r idle next fresh stack entered left =>
    have node : r ∈ g.nodes := σ.roots_known r (by rw [next]; exact List.mem_cons_self)
    apply enter_coherent h node fresh _ _ entered left
    · intro f hf
      rw [stack] at hf
      exact .inl (List.mem_singleton.mp hf)
    · intro m hm
      rw [next] at hm
      rcases List.mem_cons.mp hm with rfl | hm
      · exact .inl (by rw [entered]; exact List.mem_cons_self)
      · exact .inr hm
    · simp [labels, idle]
    · simp [labels, idle, stack]
  | leave l front same entered left => exact leave_coherent h front same entered left
  | skipReference l d ds below front known stack same entered left =>
    apply skip_coherent h _ entered left
    · intro f hf
      rw [stack] at hf
      rw [front]
      rcases List.mem_cons.mp hf with rfl | hf
      · exact ⟨_, List.mem_cons_self, .tail l ds known⟩
      · exact ⟨f, List.mem_cons_of_mem _ hf, .refl _ f⟩
    · intro m hm
      rw [same]
      exact .inr hm
    · simp only [labels, front, stack, List.map_cons]
  | enterReference l d ds below front fresh stack same entered left =>
    have top : ⟨l, d :: ds⟩ ∈ σ.stack := by rw [front]; exact List.mem_cons_self
    have node : d ∈ g.nodes := σ.pending_known _ top d List.mem_cons_self
    have led : g.Leads l d := h.pending _ top List.mem_cons_self
    apply enter_coherent h node fresh _ _ entered left
    · intro f hf
      rw [stack] at hf
      rw [front]
      rcases List.mem_cons.mp hf with rfl | hf
      · exact .inl rfl
      · rcases List.mem_cons.mp hf with rfl | hf
        · have now : d ∈ τ.entered := by rw [entered]; exact List.mem_cons_self
          exact .inr ⟨_, List.mem_cons_self, .tail l ds now⟩
        · exact .inr ⟨f, List.mem_cons_of_mem _ hf, .refl _ f⟩
    · intro m hm
      rw [same]
      exact .inr hm
    · intro m hm
      rw [labels, front] at hm
      rcases List.mem_cons.mp hm with rfl | hm
      · exact .single led
      · have p := h.path
        rw [labels, front] at p
        exact ((List.pairwise_cons.mp p).1 m hm).tail led
    · simp only [labels, front, stack, List.map_cons]

theorem run_coherent {roots : List String} {σ : Search g} (h : Coherent roots σ) :
    Coherent roots σ.run := by
  induction σ using run.induct with
  | case1 σ ended =>
    rw [run, ended]
    exact h
  | case2 σ τ stepped ih =>
    rw [run, stepped]
    exact ih (step_coherent h stepped)

/-- The second search comes from the first one by steps, and no step is left. -/
def Ends (σ τ : Search g) : Prop :=
  Relation.ReflTransGen (fun before after : Search g => before.step = some after) σ τ ∧
    τ.step = none

theorem ends_run (σ : Search g) : Ends σ σ.run := by
  induction σ using run.induct with
  | case1 σ ended =>
    rw [run, ended]
    exact ⟨.refl, ended⟩
  | case2 σ τ stepped ih =>
    rw [run, stepped]
    exact ⟨.head stepped ih.1, ih.2⟩

theorem Ends.roots_stack {σ τ : Search g} (h : Ends σ τ) : τ.roots = [] ∧ τ.stack = [] :=
  step_eq_none h.2

/-- Where no label leads anywhere, labels are left in the order in which they are entered. -/
theorem left_run_of_unreferring (nowhere : ∀ l, g.next l = []) {σ : Search g}
    (looked : ∀ f ∈ σ.stack, f.pending = []) (apart : σ.roots.Nodup)
    (fresh : ∀ r ∈ σ.roots, r ∉ σ.entered) : σ.run.left = σ.left ++ σ.labels ++ σ.roots := by
  induction σ using run.induct with
  | case1 σ ended =>
    obtain ⟨roots, stack⟩ := step_eq_none ended
    rw [run, ended]
    simp [labels, roots, stack]
  | case2 σ τ stepped ih =>
    rw [run, stepped]
    cases moves_of_step stepped with
    | skipRoot r idle roots known stack entered left =>
      exact absurd known (fresh r (by simp [roots]))
    | enterRoot r idle roots new stack entered left =>
      rw [roots, List.nodup_cons] at apart
      rw [ih, left, labels, labels, stack, idle, roots]
      · simp
      · simp [stack, nowhere]
      · exact apart.2
      · intro r' hr
        rw [entered, List.mem_cons, not_or]
        exact ⟨fun same => apart.1 (same ▸ hr), fresh r' (by simp [roots, hr])⟩
    | leave l front roots entered left =>
      rw [ih, left, labels, labels, front, roots]
      · simp
      · exact fun f hf => looked f (by simp [front, hf])
      · exact roots ▸ apart
      · rw [roots, entered]
        exact fresh
    | skipReference l d ds below front known stack roots entered left =>
      cases looked ⟨l, d :: ds⟩ (by simp [front])
    | enterReference l d ds below front new stack roots entered left =>
      cases looked ⟨l, d :: ds⟩ (by simp [front])

/-! Searches over graphs with different nodes that lead from label to label alike. -/

variable {h : ReferenceGraph}

/-- The searches stand at the same point. Only the nodes of their graphs may differ. -/
structure Alike (σ : Search g) (τ : Search h) : Prop where
  roots : τ.roots = σ.roots
  stack : τ.stack = σ.stack
  entered : τ.entered = σ.entered
  left : τ.left = σ.left

theorem Alike.step {σ σ' : Search g} {τ : Search h} (alike : Alike σ τ) (next : h.next = g.next)
    (stepped : σ.step = some σ') : ∃ τ', τ.step = some τ' ∧ Alike σ' τ' := by
  obtain ⟨tRoots, tStack, tEntered, tLeft, tKnown, tPending⟩ := τ
  obtain ⟨sameRoots, sameStack, sameEntered, sameLeft⟩ := alike
  dsimp only at sameRoots sameStack sameEntered sameLeft
  cases moves_of_step stepped with
  | skipRoot r idle roots known stack entered left =>
    rw [roots] at sameRoots
    rw [idle] at sameStack
    subst sameRoots sameStack
    have there : tEntered.contains r = true := by simpa [sameEntered] using known
    refine ⟨_, if_pos there, rfl, stack.symm, ?_, ?_⟩
    · exact sameEntered.trans entered.symm
    · exact sameLeft.trans left.symm
  | enterRoot r idle roots fresh stack entered left =>
    rw [roots] at sameRoots
    rw [idle] at sameStack
    subst sameRoots sameStack
    have apart : ¬ tEntered.contains r = true := by simpa [sameEntered] using fresh
    refine ⟨_, if_neg apart, rfl, ?_, ?_, ?_⟩
    · simp only [enter, stack, next]
    · simp only [enter, entered, sameEntered]
    · exact sameLeft.trans left.symm
  | leave l front roots entered left =>
    rw [front] at sameStack
    subst sameStack
    refine ⟨_, step.eq_3 .., ?_, rfl, ?_, ?_⟩
    · exact sameRoots.trans roots.symm
    · exact sameEntered.trans entered.symm
    · simp only [left, sameLeft]
  | skipReference l d ds below front known stack roots entered left =>
    rw [front] at sameStack
    subst sameStack
    have there : tEntered.contains d = true := by simpa [sameEntered] using known
    refine ⟨_, (step.eq_4 ..).trans (if_pos there), ?_, stack.symm, ?_, ?_⟩
    · exact sameRoots.trans roots.symm
    · exact sameEntered.trans entered.symm
    · exact sameLeft.trans left.symm
  | enterReference l d ds below front fresh stack roots entered left =>
    rw [front] at sameStack
    subst sameStack
    have apart : ¬ tEntered.contains d = true := by simpa [sameEntered] using fresh
    refine ⟨_, (step.eq_4 ..).trans (if_neg apart), ?_, ?_, ?_, ?_⟩
    · exact sameRoots.trans roots.symm
    · simp only [enter, stack, next]
    · simp only [enter, entered, sameEntered]
    · exact sameLeft.trans left.symm

theorem Alike.stop {σ : Search g} {τ : Search h} (alike : Alike σ τ) (stopped : σ.step = none) :
    τ.step = none := by
  obtain ⟨roots, stack⟩ := step_eq_none stopped
  obtain ⟨tRoots, tStack, tEntered, tLeft, tKnown, tPending⟩ := τ
  obtain rfl : tRoots = [] := alike.roots.trans roots
  obtain rfl : tStack = [] := alike.stack.trans stack
  rfl

theorem Alike.run {σ : Search g} {τ : Search h} (alike : Alike σ τ) (next : h.next = g.next) :
    Alike σ.run τ.run := by
  induction σ using run.induct generalizing τ with
  | case1 σ ended =>
    rw [Search.run, ended, Search.run, alike.stop ended]
    exact alike
  | case2 σ σ' stepped ih =>
    obtain ⟨τ', steppedThere, later⟩ := alike.step next stepped
    rw [Search.run, stepped, Search.run, steppedThere]
    exact ih later

end Search

end FormulaSheet
