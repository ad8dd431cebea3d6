import FormulaSheet.Address.Column
import FormulaSheet.Decimal.Digits
import FormulaSheet.Text.Digit
import FormulaSheet.Text.Upper
/-!
Cell labels: one to three capital letters for the column and a row number that does not begin with
zero. One line feed may follow a label; it is part of the text but not of the position. Whether a
label lies inside a sheet is not decided here. A row number has as many digits as it likes: a limit
that a runtime may set to reading them is left out.
-/

namespace FormulaSheet

open Text

/-- A grid position, counted from zero. -/
structure Position where
  row : Nat
  column : Nat
deriving DecidableEq, Repr

/-- Row-major order. -/
def Position.le (a b : Position) : Bool :=
  a.row < b.row || (a.row == b.row && a.column ≤ b.column)

namespace Label

def isCapital (c : Char) : Bool := 'A' ≤ c && c ≤ 'Z'

/-- The column letters and the row digits of a label. -/
def split? (label : String) : Option (List Char × List Char) :=
  let cs := label.toList
  let column := cs.takeWhile isCapital
  let afterColumn := cs.dropWhile isCapital
  let row := afterColumn.takeWhile isAsciiDigit
  let rest := afterColumn.dropWhile isAsciiDigit
  if 1 ≤ column.length ∧ column.length ≤ 3 ∧ row ≠ [] ∧ row.head? ≠ some '0' ∧
      (rest = [] ∨ rest = ['\n']) then
    some (column, row)
  else none

/-- Whether a text looks like a label. -/
def isLabel (label : String) : Bool := (split? label).isSome

/-- The position that a label stands for. -/
def parse? (label : String) : Option Position :=
  (split? label).map fun (column, row) =>
    ⟨digitsValue row - 1, (Column.index column).toNat⟩

/-- The position that a label in either case stands for. -/
def position? (label : String) : Option Position := parse? (upper label)

/-- Whether a text is an upper-case label of a position inside the bounds. -/
def isKey (rows columns : Nat) (k : String) : Bool :=
  upper k == k && (parse? k).any fun p => p.row < rows && p.column < columns

/-- The label text of a position; outside the grid it is no label. -/
def ofPosition (row column : Int) : String :=
  String.ofList (Column.letters column ++ Decimal.signedDigits (row + 1))

end Label

end FormulaSheet
