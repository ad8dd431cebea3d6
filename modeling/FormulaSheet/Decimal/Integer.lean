import FormulaSheet.Text.Blank
import FormulaSheet.Text.Digit
/-!
Reading whole numbers from free text: blanks around, an optional sign, digits of any script, and
single underscores between digits. There is no limit to the digits, though a runtime may set one.
-/

namespace FormulaSheet.Decimal

open Text

/-- Blanks that may surround a whole number: all but the four information separators. -/
def isPadding (c : Char) : Bool := isBlank c && !(0x1C ≤ c.toNat && c.toNat ≤ 0x1F)

/-- The digits of a numeral without the underscores, each of which needs a digit on either side. -/
def grouped? : List Char → Option (List Char)
  | [] => none
  | [c] => if isDigit c then some [c] else none
  | c :: '_' :: rest => if isDigit c then (grouped? rest).map (c :: ·) else none
  | c :: rest => if isDigit c then (grouped? rest).map (c :: ·) else none

def readInteger? (cs : List Char) : Option Int :=
  let body := ((cs.dropWhile isPadding).reverse.dropWhile isPadding).reverse
  match body with
  | '+' :: rest => (grouped? rest).map fun ds => (digitsValue ds : Int)
  | '-' :: rest => (grouped? rest).map fun ds => -(digitsValue ds : Int)
  | rest => (grouped? rest).map fun ds => (digitsValue ds : Int)

end FormulaSheet.Decimal
