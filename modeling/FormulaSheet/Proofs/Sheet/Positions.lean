import FormulaSheet.Proofs.Address.Position
import FormulaSheet.Proofs.Sheet.Order
/-!
Cells and positions. Every key lies inside the bounds, and keys of one position differ in no more
than a final line feed: where no key ends in one, each position has one cell and the cells come in
strict row-major order. A line feed makes a second cell of the same position.
-/

namespace FormulaSheet.Sheet

open Label

theorem position?_of_isKey {rows columns : Nat} {k : String} (h : isKey rows columns k = true) :
    ∃ p, position? k = some p ∧ parse? k = some p ∧ p.row < rows ∧ p.column < columns := by
  obtain ⟨p, hp, inside⟩ := isKey_iff.mp h
  refine ⟨p, ?_, hp, inside⟩
  rw [position?, upper_of_isLabel (isLabel_of_parse? hp), hp]

theorem position?_of_entry {s : Sheet} {e : String × Nat} (h : e ∈ s.sortedKeys) :
    ∃ p, position? e.1 = some p ∧ parse? e.1 = some p ∧ p.row < s.rows ∧ p.column < s.columns :=
  position?_of_isKey (s.inside e ((sortedKeys_perm s).mem_iff.mp h))

theorem eq_of_key {s : Sheet} {a b j k : String} (ha : s.key a = .ok j) (hb : s.key b = .ok k)
    (same : position? a = position? b) (line : endsLine j = endsLine k) : j = k := by
  obtain ⟨rfl, inside⟩ := key_eq_ok_iff.mp ha
  obtain ⟨rfl, _⟩ := key_eq_ok_iff.mp hb
  obtain ⟨p, hp, _⟩ := isKey_iff.mp inside
  exact eq_of_parse? hp ((same.symm.trans hp : position? b = some p)) line

theorem locate_congr {s : Sheet} {a b : String} (h : s.key a = s.key b) :
    s.locate a = s.locate b := by
  rw [locate, locate, h]

theorem sortedKeys_pairwise (s : Sheet) :
    s.sortedKeys.Pairwise fun a b => ∀ p q, position? a.1 = some p → position? b.1 = some q →
      p.le q = true := by
  have sorted : s.sortedKeys.Pairwise fun a b =>
      Position.le ((position? a.1).getD ⟨0, 0⟩) ((position? b.1).getD ⟨0, 0⟩) = true := by
    unfold sortedKeys
    apply List.pairwise_mergeSort
    · exact fun _ _ _ => Position.le_trans _ _ _
    · exact fun _ _ => Position.le_total _ _
  refine sorted.imp ?_
  intro a b le p q hp hq
  simpa [hp, hq] using le

theorem nodup_sortedKeys (s : Sheet) : s.sortedKeys.Pairwise fun a b => a.1 ≠ b.1 :=
  List.pairwise_map.mp (((sortedKeys_perm s).map Prod.fst).nodup_iff.mpr s.distinct)

/-- Every cell lies inside the bounds. Labels of one position lead to one cell unless only one of
them ends in a line feed. Cells come in row-major order, strictly so if no key ends in a line
feed. -/
theorem cells_by_position (s : Sheet) :
    (∀ e ∈ s.entries, ∃ p, position? e.1 = some p ∧ p.row < s.rows ∧ p.column < s.columns) ∧
      (∀ a b j k, s.key a = .ok j → s.key b = .ok k → position? a = position? b →
        endsLine j = endsLine k → j = k ∧ s.locate a = s.locate b ∧ s.find? a = s.find? b) ∧
      (s.entries.Pairwise fun a b => ∀ p q, position? a.1 = some p → position? b.1 = some q →
        p.le q = true) ∧
      ((∀ e ∈ s.entries, endsLine e.1 = false) → s.entries.Pairwise fun a b =>
        ∀ p q, position? a.1 = some p → position? b.1 = some q → p.Before q) := by
  refine ⟨?_, ?_, ?_, ?_⟩
  · intro e he
    obtain ⟨k, hk, rfl⟩ := List.mem_map.mp he
    obtain ⟨p, hp, _, inside⟩ := position?_of_entry hk
    exact ⟨p, hp, inside⟩
  · intro a b j k ha hb same line
    have key := eq_of_key ha hb same line
    subst key
    refine ⟨rfl, locate_congr (ha.trans hb.symm), ?_⟩
    rw [find?, find?, ← (key_eq_ok_iff.mp ha).1, ← (key_eq_ok_iff.mp hb).1]
  · exact List.pairwise_map.mpr s.sortedKeys_pairwise
  · intro plain
    apply List.pairwise_map.mpr
    refine (s.sortedKeys_pairwise.and s.nodup_sortedKeys).imp_of_mem ?_
    rintro a b ha hb ⟨le, apart⟩ p q hp hq
    apply Position.before_of_le (le p q hp hq)
    rintro rfl
    -- two keys of one position without line feeds would be one key
    obtain ⟨p', hp', parsed, _⟩ := position?_of_entry ha
    obtain ⟨q', hq', parsed', _⟩ := position?_of_entry hb
    obtain rfl : p' = p := Option.some.inj (hp'.symm.trans hp)
    obtain rfl : q' = p' := Option.some.inj (hq'.symm.trans hq)
    have lineA := plain _ (List.mem_map.mpr ⟨a, ha, rfl⟩)
    have lineB := plain _ (List.mem_map.mpr ⟨b, hb, rfl⟩)
    exact apart (eq_of_parse? parsed parsed' (lineA.trans lineB.symm))

/-- A label with a line feed leads to a second cell of its position. -/
theorem second_cell_of_position :
    ¬ ∀ (s t u : Sheet) (a b : String) (i j : Nat), s.locate a = .ok (i, t) →
      t.locate b = .ok (j, u) → position? a = position? b → i = j := by
  intro one
  have inside : standard.key "A1" = .ok "A1" := key_of_isKey (by decide +kernel)
  have first := locate_of_fresh inside rfl
  have again : ((standard.add (.blank "A1")).2.assign "A1" (standard.add (.blank "A1")).1).key
      "A1\n" = .ok "A1\n" := key_of_isKey (by decide +kernel)
  have second := locate_of_fresh again (by decide +kernel)
  have same := one _ _ _ _ _ _ _ first second (by decide +kernel)
  revert same
  decide +kernel

end FormulaSheet.Sheet
