import FormulaSheet.Proofs.Sheet.Entry
import FormulaSheet.Proofs.Sheet.Positions
/-!
The order of the labels with formulas. They are sorted by their positions, and where positions are
the same they come as their cells came into being. So the formulas and, at each position, the order
of their keys tell all of it.
-/

namespace FormulaSheet.Sheet

/-- The position by which a key is sorted. -/
def sortPosition (k : String) : Position := (Label.position? k).getD ⟨0, 0⟩

/-- The labels come in the order of their positions. -/
def Sorted (labels : List String) : Prop :=
  labels.Pairwise fun a b => (sortPosition a).le (sortPosition b) = true

theorem Sorted.head_le {a b : String} {rest : List String} (sorted : Sorted (a :: rest))
    (hb : b ∈ a :: rest) : (sortPosition a).le (sortPosition b) = true := by
  rcases List.mem_cons.mp hb with rfl | hb
  · simp [Position.le_iff]
  · exact (List.pairwise_cons.mp sorted).1 b hb

/-- The labels that are sorted at a position. -/
def atPosition (p : Position) (labels : List String) : List String :=
  labels.filter fun k => decide (sortPosition k = p)

theorem mem_of_atPosition {labels labels' : List String} {k : String} (hk : k ∈ labels)
    (same : atPosition (sortPosition k) labels' = atPosition (sortPosition k) labels) :
    k ∈ labels' := by
  have there : k ∈ atPosition (sortPosition k) labels := by simp [atPosition, hk]
  rw [← same] at there
  exact (List.mem_filter.mp there).1

/-- Sorted labels are the same if they are the same at each position. -/
theorem Sorted.eq_of_atPosition {labels labels' : List String} (sorted : Sorted labels)
    (sorted' : Sorted labels') (same : ∀ p, atPosition p labels' = atPosition p labels) :
    labels' = labels := by
  induction labels generalizing labels' with
  | nil =>
    rw [List.eq_nil_iff_forall_not_mem]
    intro k hk
    cases mem_of_atPosition hk (same _).symm
  | cons a rest ih =>
    cases labels' with
    | nil => cases mem_of_atPosition List.mem_cons_self (same _)
    | cons b rest' =>
      have before := sorted.head_le (mem_of_atPosition List.mem_cons_self (same _).symm)
      have behind := sorted'.head_le (mem_of_atPosition List.mem_cons_self (same _))
      -- each head stands in the other list, so neither position is in front of the other
      have one : sortPosition b = sortPosition a := Position.le_antisymm behind before
      have heads := same (sortPosition a)
      simp only [atPosition, List.filter_cons, one, decide_true, if_true] at heads
      obtain rfl : b = a := (List.cons.inj heads).1
      have tails : ∀ p, atPosition p rest' = atPosition p rest := by
        intro p
        have here := same p
        simp only [atPosition, List.filter_cons] at here
        split at here
        · exact (List.cons.inj here).2
        · exact here
      rw [ih (List.pairwise_cons.mp sorted).2 (List.pairwise_cons.mp sorted').2 tails]

theorem sortedKeys_eq (s : Sheet) : s.sortedKeys =
    s.keys.mergeSort fun a b => (sortPosition a.1).le (sortPosition b.1) := rfl

theorem sorted_sortedKeys (s : Sheet) : Sorted (s.sortedKeys.map (·.1)) := by
  rw [sortedKeys_eq]
  apply List.pairwise_map.mpr
  apply List.pairwise_mergeSort
  · exact fun a b c => Position.le_trans (sortPosition a.1) (sortPosition b.1) (sortPosition c.1)
  · exact fun a b => Position.le_total (sortPosition a.1) (sortPosition b.1)

/-- A stable sort leaves alone the order of elements that it takes for equal. -/
theorem filter_mergeSort {α : Type} {le : α → α → Bool}
    (trans : ∀ a b c, le a b = true → le b c = true → le a c = true)
    (total : ∀ a b, (le a b || le b a) = true) {q : α → Bool}
    (ties : ∀ a b, q a = true → q b = true → le a b = true) (l : List α) :
    (l.mergeSort le).filter q = l.filter q := by
  have inOrder : (l.filter q).Pairwise fun a b => le a b = true := by
    rw [List.pairwise_iff_forall_sublist]
    intro a b pair
    apply ties
    · exact (List.mem_filter.mp (pair.subset List.mem_cons_self)).2
    · exact (List.mem_filter.mp (pair.subset (List.mem_cons_of_mem a List.mem_cons_self))).2
  -- what is kept stays a sublist, and it has as many elements as before
  have kept := (List.sublist_mergeSort trans total inOrder List.filter_sublist).filter q
  rw [List.filter_filter] at kept
  simp only [Bool.and_self] at kept
  exact (kept.eq_of_length ((List.mergeSort_perm l le).filter q).length_eq.symm).symm

theorem atPosition_sortedKeys (s : Sheet) (p : Position) :
    atPosition p (s.sortedKeys.map (·.1)) = atPosition p (s.keys.map (·.1)) := by
  rw [atPosition, atPosition, List.filter_map, List.filter_map, sortedKeys_eq, filter_mergeSort]
  · exact fun a b c => Position.le_trans (sortPosition a.1) (sortPosition b.1) (sortPosition c.1)
  · exact fun a b => Position.le_total (sortPosition a.1) (sortPosition b.1)
  · intro a b ha hb
    have hp : sortPosition a.1 = p := by simpa using ha
    have hq : sortPosition b.1 = p := by simpa using hb
    rw [hp, hq]
    simp [Position.le_iff]

/-- The keys of formulas in the order in which their cells came into being. -/
def filledKeys (s : Sheet) : List String :=
  (s.keys.map (·.1)).filter fun k => !(s.formula k).isEmpty

theorem labelsWithFormulas_eq_filter {s : Sheet} (own : s.SelfLabelled) :
    s.labelsWithFormulas =
      (s.sortedKeys.map (·.1)).filter fun k => !(s.formula k).isEmpty := by
  rw [labelsWithFormulas_eq own, List.filter_map]
  congr 1
  apply List.filter_congr
  intro e he
  have known := lookup_of_mem_keys ((sortedKeys_perm s).mem_iff.mp he)
  have cell : s.cell? e.1 = some (s.cellAt e.2) := cell?_eq_some_iff.mpr ⟨e.2, known, rfl⟩
  rw [Function.comp_apply, formula_of_cell? cell]
  rfl

theorem sorted_labelsWithFormulas {s : Sheet} (own : s.SelfLabelled) :
    Sorted s.labelsWithFormulas := by
  rw [labelsWithFormulas_eq_filter own]
  exact List.Pairwise.filter _ s.sorted_sortedKeys

theorem atPosition_labelsWithFormulas {s : Sheet} (own : s.SelfLabelled) (p : Position) :
    atPosition p s.labelsWithFormulas = atPosition p s.filledKeys := by
  have filtered : ∀ keys : List String,
      atPosition p (keys.filter fun k => !(s.formula k).isEmpty) =
        (atPosition p keys).filter fun k => !(s.formula k).isEmpty := by
    intro keys
    simp only [atPosition, List.filter_filter, Bool.and_comm]
  rw [labelsWithFormulas_eq_filter own, filledKeys, filtered, filtered, atPosition_sortedKeys]

theorem mem_filledKeys {s : Sheet} {p : Position} {k : String} :
    k ∈ atPosition p s.filledKeys ↔ sortPosition k = p ∧ s.formula k ≠ [] := by
  simp only [atPosition, filledKeys, List.mem_filter, decide_eq_true_eq, Bool.not_eq_true',
    List.isEmpty_eq_false_iff]
  constructor
  · rintro ⟨⟨_, filled⟩, position⟩
    exact ⟨position, filled⟩
  · rintro ⟨position, filled⟩
    obtain ⟨c, hc, _⟩ := exists_cell?_of_formula filled
    obtain ⟨slot, hs, _⟩ := cell?_eq_some_iff.mp hc
    exact ⟨⟨List.mem_map.mpr ⟨_, mem_keys_of_lookup hs, rfl⟩, filled⟩, position⟩

theorem parse?_eq_sortPosition {s : Sheet} {k : String} (filled : s.formula k ≠ []) :
    Label.parse? k = some (sortPosition k) := by
  obtain ⟨c, hc, _⟩ := exists_cell?_of_formula filled
  obtain ⟨p, position, parsed, _⟩ := position?_of_isKey (isKey_of_cell? hc)
  rw [parsed, sortPosition, position]
  rfl

theorem eq_of_sortPosition {s : Sheet} {a b : String} (ha : s.formula a ≠ [])
    (hb : s.formula b ≠ []) (same : sortPosition a = sortPosition b)
    (line : Label.endsLine a = Label.endsLine b) : a = b := by
  have parsed := parse?_eq_sortPosition ha
  rw [same] at parsed
  exact Label.eq_of_parse? parsed (parse?_eq_sortPosition hb) line

theorem nodup_filledKeys (s : Sheet) (p : Position) : (atPosition p s.filledKeys).Nodup :=
  (s.distinct.filter _).filter _

end FormulaSheet.Sheet
