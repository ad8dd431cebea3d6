import FormulaSheet.Proofs.Address.Codes
import FormulaSheet.Proofs.Sheet.Positions
import FormulaSheet.Proofs.Sheet.Soundness
/-!
Looking a position up. The position is written as a label and read again, and the sheet is asked for
the label: the cells that are found are those of the positions inside the bounds, as far as three
letters reach, and each of them is found under a key of its own position. A row with too many digits
cannot be written as part of a label. What is refused leaves the sheet as it was.
-/

namespace FormulaSheet.Sheet

/-- The sheet after a blank cell came under a key that had none, behind all other keys. -/
structure Added (s t : Sheet) (k : String) (slot : Nat) : Prop where
  fresh : s.keys.lookup k = none
  rows : t.rows = s.rows
  columns : t.columns = s.columns
  keys : t.keys = s.keys ++ [(k, slot)]
  blank : t.cellAt slot = .blank k
  others : ∀ k', k' ≠ k → t.cell? k' = s.cell? k'

theorem link_of_fresh {k : String} {keys : List (String × Nat)} (fresh : keys.lookup k = none)
    (slot : Nat) : link k slot keys = keys ++ [(k, slot)] := by
  induction keys with
  | nil => rfl
  | cons e rest ih =>
    have apart : e.1 ≠ k := by
      rintro rfl
      simp at fresh
    rw [List.lookup_cons, beq_false_of_ne (Ne.symm apart)] at fresh
    rw [link, if_neg apart, ih fresh, List.cons_append]

theorem added_fresh {s : Sheet} {k : String} (fresh : s.keys.lookup k = none)
    (inside : Label.isKey s.rows s.columns k = true) :
    Added s ((s.add (.blank k)).2.assign k (s.add (.blank k)).1) k (s.add (.blank k)).1 := by
  have stored : (s.add (.blank k)).1 < (s.add (.blank k)).2.pool.size := by
    rw [add, Array.size_push]
    exact Nat.lt_succ_self _
  have located := located_fresh fresh inside
  have none : s.cell? k = none := by rw [cell?, fresh]; rfl
  refine ⟨fresh, located.rows, located.columns, ?_, ?_, ?_⟩
  · rw [keys_assign stored inside]
    exact link_of_fresh fresh _
  · rw [located.cellAt, none]
    rfl
  · intro k' apart
    rw [located.cell, if_neg apart]

theorem same_or_added {s t : Sheet} {label k : String} {slot : Nat} (hk : s.key label = .ok k)
    (h : s.locate label = .ok (slot, t)) : t = s ∨ Added s t k slot := by
  cases hl : s.keys.lookup k with
  | some i =>
    rw [locate_of_lookup hk hl] at h
    cases h
    exact .inl rfl
  | none =>
    rw [locate_of_fresh hk hl] at h
    cases h
    exact .inr (added_fresh hl (key_eq_ok_iff.mp hk).2)

/-- What a pair of numbers is called is a key if it is a label, and the label lies inside. -/
theorem key_ofPosition (s : Sheet) (row column : Int) :
    s.key (Label.ofPosition row column) =
      if 0 ≤ row ∧ 0 ≤ column ∧ column < 18278 then
        if row < s.rows ∧ column < s.columns then .ok (Label.ofPosition row column)
        else .error (.outside (Label.ofPosition row column) s.rows s.columns)
      else .error (.notALabel (Label.ofPosition row column)) := by
  unfold key
  simp only [Label.upper_ofPosition, Label.parse?_ofPosition]
  by_cases called : 0 ≤ row ∧ 0 ≤ column ∧ column < 18278
  · simp only [if_pos called]
    by_cases inside : row < s.rows ∧ column < s.columns
    · rw [if_pos inside, if_neg (by omega)]
    · rw [if_neg inside, if_pos (by omega)]
  · simp only [if_neg called]

theorem key_ofPosition_inside {s : Sheet} {row column : Int}
    (h : (0 ≤ row ∧ row < s.rows) ∧ 0 ≤ column ∧ column < min (s.columns : Int) 18278) :
    s.key (Label.ofPosition row column) = .ok (Label.ofPosition row column) := by
  rw [key_ofPosition, if_pos (by omega), if_pos (by omega)]

theorem key_ofPosition_outside {s : Sheet} {row column : Int}
    (h : ¬((0 ≤ row ∧ row < s.rows) ∧ 0 ≤ column ∧ column < min (s.columns : Int) 18278)) :
    ∃ e, s.key (Label.ofPosition row column) = .error e ∧
      (e = .notALabel (Label.ofPosition row column) ∨
        e = .outside (Label.ofPosition row column) s.rows s.columns) := by
  rw [key_ofPosition]
  by_cases called : 0 ≤ row ∧ 0 ≤ column ∧ column < 18278
  · rw [if_pos called, if_neg (by omega)]
    exact ⟨_, rfl, .inr rfl⟩
  · rw [if_neg called]
    exact ⟨_, rfl, .inl rfl⟩

theorem locatePosition_tooLong {row : Int} (long : Decimal.isWritable (row + 1) = false) (s : Sheet)
    (column : Int) : s.locatePosition row column = .error .tooLong :=
  if_neg (by simp [long])

/-- What is refused where the row can be written: a text that is no label, or a label outside. The
message about the latter names the bounds, which may be too long. -/
theorem locatePosition_outside {s : Sheet} {row column : Int}
    (writable : Decimal.isWritable (row + 1) = true)
    (h : ¬((0 ≤ row ∧ row < s.rows) ∧ 0 ≤ column ∧ column < min (s.columns : Int) 18278)) :
    ∃ e, s.locatePosition row column = .error e ∧
      (e = .reference (.notALabel (Label.ofPosition row column)) ∨
        if Decimal.isWritable s.rows ∧ Decimal.isWritable s.columns then
          e = .reference (.outside (Label.ofPosition row column) s.rows s.columns)
        else e = .tooLong) := by
  obtain ⟨r, key, kind⟩ := key_ofPosition_outside h
  have refused : s.locatePosition row column = .error (.ofReference r) := by
    rw [locatePosition, if_pos writable, locate_eq_error_iff.mpr key]
    rfl
  refine ⟨_, refused, ?_⟩
  rcases kind with rfl | rfl
  · exact .inl rfl
  · right
    simp only [PositionError.ofReference, Bool.and_eq_true]
    split <;> rfl

/-- A lookup by position finds a cell if and only if the position lies inside the sheet, its column
has a label, and its row is a number that can be written. The cell stands under a key of this
position; no other cell is new. Everything else is refused, and the sheet stays as it was. Only
numbers that are too long, the row or the bounds, are refused otherwise than as a reference. -/
theorem position_lookup (s : Sheet) (row column : Int) :
    ((∃ found, s.locatePosition row column = .ok found) ↔
        ((0 ≤ row ∧ row < s.rows) ∧ 0 ≤ column ∧ column < min (s.columns : Int) 18278) ∧
          Decimal.isWritable (row + 1) = true) ∧
      (∀ slot t, s.locatePosition row column = .ok (slot, t) →
        ∃ k, Label.position? k = some ⟨row.toNat, column.toNat⟩ ∧ t.keys.lookup k = some slot ∧
          (t = s ∨ Added s t k slot)) ∧
      (Decimal.isWritable (row + 1) = false → s.locatePosition row column = .error .tooLong) ∧
      ∀ e, s.locatePosition row column = .error e →
        s.operate (.lookUpAt row column) = s ∧
        (Decimal.isWritable (row + 1) = true →
          e = .reference (.notALabel (Label.ofPosition row column)) ∨
            if Decimal.isWritable s.rows ∧ Decimal.isWritable s.columns then
              e = .reference (.outside (Label.ofPosition row column) s.rows s.columns)
            else e = .tooLong) := by
  have unchanged : ∀ e, s.locatePosition row column = .error e →
      s.operate (.lookUpAt row column) = s := by
    intro e refused
    rw [operate, lookedUpAt, refused]
    rfl
  by_cases writable : Decimal.isWritable (row + 1) = true
  · by_cases inside : (0 ≤ row ∧ row < s.rows) ∧ 0 ≤ column ∧ column < min (s.columns : Int) 18278
    · have key := key_ofPosition_inside inside
      obtain ⟨slot, t, found, located⟩ := exists_locate key
      have reached : s.locatePosition row column = .ok (slot, t) := by
        rw [locatePosition, if_pos writable, found]
        rfl
      refine ⟨⟨fun _ => ⟨inside, writable⟩, fun _ => ⟨_, reached⟩⟩, ?_, ?_, ?_⟩
      · intro slot' t' again
        cases reached.symm.trans again
        refine ⟨_, ?_, located.slot, same_or_added key found⟩
        rw [Label.position?, Label.upper_ofPosition, Label.parse?_ofPosition, if_pos (by omega)]
      · intro long
        cases writable.symm.trans long
      · intro e refused
        cases reached.symm.trans refused
    · obtain ⟨e, refused, kind⟩ := locatePosition_outside writable inside
      refine ⟨⟨?_, fun h => absurd h.1 inside⟩, ?_, ?_, ?_⟩
      · rintro ⟨found, reached⟩
        cases refused.symm.trans reached
      · intro slot t reached
        cases refused.symm.trans reached
      · intro long
        cases writable.symm.trans long
      · intro e' again
        cases refused.symm.trans again
        exact ⟨unchanged e refused, fun _ => kind⟩
  · have refused := s.locatePosition_tooLong (Bool.eq_false_iff.mpr writable) column
    refine ⟨⟨?_, fun h => absurd h.2 writable⟩, ?_, fun _ => refused, ?_⟩
    · rintro ⟨found, reached⟩
      cases refused.symm.trans reached
    · intro slot t reached
      cases refused.symm.trans reached
    · intro e again
      exact ⟨unchanged e again, fun h => absurd h writable⟩

/-- In a sheet of 100 rows and 26 columns: B3, the row above the first, and a column that would need
four letters. -/
theorem position_lookup_in_standard :
    (∃ slot t k, standard.locatePosition 2 1 = .ok (slot, t) ∧
        Label.position? k = some ⟨2, 1⟩ ∧ t.keys.lookup k = some slot) ∧
      standard.operate (.lookUpAt (-1) 0) = standard ∧
      ¬ ∃ found, standard.locatePosition 0 18278 = .ok found := by
  obtain ⟨reached, reads, -⟩ := position_lookup standard 2 1
  obtain ⟨⟨slot, t⟩, found⟩ := reached.mpr (by decide +kernel)
  obtain ⟨k, position, lookup, -⟩ := reads slot t found
  refine ⟨⟨slot, t, k, found, position, lookup⟩, ?_, ?_⟩
  · obtain ⟨above, -, -, refused⟩ := position_lookup standard (-1) 0
    cases h : standard.locatePosition (-1) 0 with
    | ok found => exact absurd (above.mp ⟨found, h⟩).1 (by decide)
    | error e => exact (refused e h).1
  · intro found
    exact absurd ((position_lookup standard 0 18278).1.mp found).1 (by decide)

/-- A row whose number has one digit more than is written. -/
def longRow : Int := ((10 ^ Decimal.digitLimit : Nat) : Int) - 1

/-- A sheet that has the long row as its last one. -/
def tall : Sheet :=
  { standard with
    rows := 10 ^ Decimal.digitLimit
    rows_pos := Nat.pow_pos (by decide)
    inside := fun _ none => nomatch none }

/-- A long row is refused, but not as a reference, whether the sheet has it or not. -/
theorem long_row_not_a_reference :
    ¬ longRow < standard.rows ∧ standard.locatePosition longRow 0 = .error .tooLong ∧
      (0 ≤ longRow ∧ longRow < tall.rows) ∧ tall.locatePosition longRow 0 = .error .tooLong := by
  have most : 10 ^ 3 ≤ 10 ^ Decimal.digitLimit := Nat.pow_le_pow_right (by decide) (by decide)
  have next : longRow + 1 = ((10 ^ Decimal.digitLimit : Nat) : Int) := by
    unfold longRow
    omega
  have long : Decimal.isWritable (longRow + 1) = false := next ▸ Decimal.isWritable_pow
  have here : (standard.rows : Int) = 100 := rfl
  have there : (tall.rows : Int) = ((10 ^ Decimal.digitLimit : Nat) : Int) := rfl
  exact ⟨by omega, locatePosition_tooLong long _ _, by omega, locatePosition_tooLong long _ _⟩

end FormulaSheet.Sheet
