import FormulaSheet.Proofs.Address.Column
import FormulaSheet.Proofs.Address.Label
import FormulaSheet.Proofs.Decimal.Digits
/-!
Labels and positions. A label is the text of its position, with or without a final line feed, so a
position has these two labels and no other.
-/

namespace FormulaSheet

/-- Row-major order, without equality. -/
def Position.Before (a b : Position) : Prop := a.row < b.row ∨ a.row = b.row ∧ a.column < b.column

theorem Position.le_iff {a b : Position} :
    a.le b = true ↔ a.row < b.row ∨ a.row = b.row ∧ a.column ≤ b.column := by
  simp [le]

theorem Position.before_of_le {a b : Position} (h : a.le b = true) (apart : a ≠ b) :
    a.Before b := by
  rcases le_iff.mp h with row | ⟨row, column⟩
  · exact .inl row
  · refine .inr ⟨row, Nat.lt_of_le_of_ne column ?_⟩
    intro same
    exact apart (by rcases a; rcases b; simp_all)

theorem Position.le_trans (a b c : Position) (h : a.le b = true) (h' : b.le c = true) :
    a.le c = true := by
  rw [le_iff] at *
  omega

theorem Position.le_total (a b : Position) : (a.le b || b.le a) = true := by
  rw [Bool.or_eq_true, le_iff, le_iff]
  omega

theorem Position.le_antisymm {a b : Position} (h : a.le b = true) (h' : b.le a = true) : a = b := by
  obtain ⟨row, column⟩ := a
  obtain ⟨row', column'⟩ := b
  rw [le_iff] at h h'
  simp only [Position.mk.injEq] at h h' ⊢
  omega

namespace Label

open Text

def endsLine (label : String) : Bool := label.toList.getLast? == some '\n'

/-- The position that capitals and digits stand for is called by them. -/
theorem ofPosition_of_parts {column row : List Char} (capitals : ∀ c ∈ column, isCapital c = true)
    (digits : ∀ c ∈ row, isAsciiDigit c = true) (some : column ≠ []) (nonempty : row ≠ [])
    (lead : row.head? ≠ Option.some '0') :
    ofPosition (digitsValue row - 1 : Nat) (Column.index column).toNat =
      String.ofList (column ++ row) := by
  have positive := Decimal.digitsValue_pos digits nonempty lead
  have ordinal := Column.ordinal_pos capitals some
  have number : ((digitsValue row - 1 : Nat) : Int) + 1 = digitsValue row := by omega
  have letters : ((Column.index column).toNat : Int) = Column.index column := by
    rw [Column.index]
    omega
  have written : Decimal.signedDigits (digitsValue row) = row := by
    rw [Decimal.signedDigits_natCast, Decimal.digits_digitsValue digits nonempty lead]
  rw [ofPosition, number, letters, written, Column.letters_index capitals]

/-- A label is what its position is called, with or without a line feed. -/
theorem toList_of_parse? {label : String} {p : Position} (h : parse? label = some p) :
    ∃ rest, (rest = [] ∨ rest = ['\n']) ∧
      label.toList = (ofPosition p.row p.column).toList ++ rest := by
  obtain ⟨⟨column, row⟩, hs, rfl⟩ := Option.map_eq_some_iff.mp h
  obtain ⟨rest, parts⟩ := parts_of_split? hs
  have shape : column ≠ [] ∧ row ≠ [] ∧ row.head? ≠ some '0' := by
    unfold split? at hs
    dsimp only at hs
    split at hs
    · rename_i found
      cases hs
      exact ⟨List.ne_nil_of_length_pos found.1, found.2.2.1, found.2.2.2.1⟩
    · cases hs
  refine ⟨rest, parts.line, ?_⟩
  dsimp only
  rw [ofPosition_of_parts parts.capitals parts.digits shape.1 shape.2.1 shape.2.2, parts.whole,
    String.toList_ofList]

theorem getLast?_ofPosition (row column : Nat) :
    (ofPosition row column).toList.getLast? ≠ some '\n' := by
  have number : ((row : Int) + 1) = ((row + 1 : Nat) : Int) := by omega
  have digits := Decimal.digits_ne_nil (row + 1)
  rw [ofPosition, String.toList_ofList, number, Decimal.signedDigits_natCast,
    List.getLast?_append, List.getLast?_eq_some_getLast digits, Option.some_or]
  intro last
  have digit := Decimal.isAsciiDigit_digits _ _ (List.getLast_mem digits)
  exact ne_of_class digit (by decide) (Option.some.inj last)

/-- Of two labels of one position neither or only one ends in a line feed, or they are the same. -/
theorem eq_of_parse? {a b : String} {p : Position} (ha : parse? a = some p)
    (hb : parse? b = some p) (line : endsLine a = endsLine b) : a = b := by
  obtain ⟨r, hr, wholeA⟩ := toList_of_parse? ha
  obtain ⟨t, ht, wholeB⟩ := toList_of_parse? hb
  have plain : ((ofPosition p.row p.column).toList.getLast? == some '\n') = false :=
    beq_eq_false_iff_ne.mpr (getLast?_ofPosition p.row p.column)
  have same : r = t := by
    simp only [endsLine, wholeA, wholeB] at line
    rcases hr with rfl | rfl <;> rcases ht with rfl | rfl <;> simp_all
  apply String.toList_injective
  rw [wholeA, wholeB, same]

end Label

end FormulaSheet
