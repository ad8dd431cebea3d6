import FormulaSheet.Proofs.Address.Position
import FormulaSheet.Proofs.Formula.Lexemes
/-!
Letters for columns and labels for positions, there and back. Every column has letters, and all
capitals are the letters of a column. A position has a label if its column needs no more than three
letters; what is called by any other pair of numbers is no label. A label in either case is called,
in capitals, by the position that it stands for.
-/

namespace FormulaSheet.Label

open Text

/-- Columns have three letters or fewer up to the last one of three letters, ZZZ. -/
theorem length_letters_iff {column : Int} :
    1 ≤ (Column.letters column).length ∧ (Column.letters column).length ≤ 3 ↔
      0 ≤ column ∧ column < 18278 := by
  have few : (Column.letters column).length ≤ 3 ↔ (column + 1).toNat ≤ 18278 :=
    Column.length_lettersOfOrdinal_le_iff
  rw [few, Nat.one_le_iff_ne_zero, ne_eq, List.length_eq_zero_iff, ← ne_eq,
    Column.letters_ne_nil_iff]
  omega

theorem parts_ofPosition (row : Nat) (column : Int) :
    Parts (ofPosition ((row : Int) - 1) column) (Column.letters column) (Decimal.digits row) [] := by
  refine ⟨?_, Column.isCapital_letters column, Decimal.isAsciiDigit_digits row, .inl rfl⟩
  rw [ofPosition, Int.sub_add_cancel, Decimal.signedDigits_natCast, String.toList_ofList,
    List.append_nil]

/-- A row number below zero is written with a sign, and no label has one. -/
theorem split?_of_sign {text : String} {column rest : List Char}
    (capitals : ∀ c ∈ column, isCapital c = true) (whole : text.toList = column ++ '-' :: rest) :
    split? text = none := by
  have noCapital : ∀ c ∈ ('-' :: rest).head?, isCapital c = false := by
    rintro c ⟨⟩
    decide
  have noDigit : ('-' :: rest).takeWhile isAsciiDigit = [] := rfl
  unfold split?
  simp [whole, dropWhile_run capitals noCapital, noDigit]

/-- What a pair of numbers is called is a label if the row is not negative and the column has three
letters or fewer, but some. Then the label stands for this pair. -/
theorem parse?_ofPosition (row column : Int) :
    parse? (ofPosition row column) =
      if 0 ≤ row ∧ 0 ≤ column ∧ column < 18278 then some ⟨row.toNat, column.toNat⟩ else none := by
  by_cases sign : row + 1 < 0
  · have text : (ofPosition row column).toList =
        Column.letters column ++ '-' :: Decimal.digits (row + 1).natAbs := by
      rw [ofPosition, Decimal.signedDigits, if_pos sign, String.toList_ofList]
    rw [parse?, split?_of_sign (Column.isCapital_letters column) text, if_neg (by omega)]
    rfl
  · obtain ⟨n, rfl⟩ : ∃ n : Nat, row = (n : Int) - 1 := ⟨(row + 1).toNat, by omega⟩
    rw [parse?, split?_of_parts (parts_ofPosition n column) (Decimal.digits_ne_nil n)]
    simp only [length_letters_iff]
    by_cases zero : n = 0
    · subst zero
      have lead : (Decimal.digits 0).head? = some '0' := by decide +kernel
      rw [if_neg (fun h => h.2 lead), if_neg (by omega)]
      rfl
    · by_cases inside : 0 ≤ column ∧ column < 18278
      · rw [if_pos ⟨inside, Decimal.head?_digits zero⟩, if_pos ⟨by omega, inside⟩, Option.map_some,
          Decimal.digitsValue_digits, Column.index_letters inside.1]
        congr 2
        omega
      · rw [if_neg (fun h => inside h.1), if_neg (fun h => inside h.2)]
        rfl

/-- What a pair of numbers is called has no small letters. -/
theorem upper_ofPosition (row column : Int) :
    upper (ofPosition row column) = ofPosition row column := by
  apply upper_of_lt
  intro c hc
  rw [ofPosition, String.toList_ofList, Decimal.signedDigits] at hc
  rcases List.mem_append.mp hc with hc | hc
  · exact toNat_lt_of_isCapital (Column.isCapital_letters column c hc)
  · split at hc
    · rcases List.mem_cons.mp hc with rfl | hc
      · decide
      · exact toNat_lt_of_isAsciiDigit (Decimal.isAsciiDigit_digits _ c hc)
    · exact toNat_lt_of_isAsciiDigit (Decimal.isAsciiDigit_digits _ c hc)

end FormulaSheet.Label
