/-!
Column letters and column numbers. Letters are the digits 1 to 26 of a number system without a
zero: A to Z are columns 0 to 25, AA is column 26. Reading does not check its letters; every
character counts by its distance from A, so other characters give numbers too, below zero at times.
-/

namespace FormulaSheet.Column

/-- The number that the letters stand for when A is one. -/
def ordinal (letters : List Char) : Int :=
  letters.foldl (fun n c => n * 26 + ((c.toNat : Int) - 'A'.toNat + 1)) 0

/-- The column, counted from zero. -/
def index (letters : List Char) : Int := ordinal letters - 1

def letter (d : Nat) : Char := Char.ofNat ('A'.toNat + d)

/-- The letters whose ordinal is `n`; none for zero. -/
def lettersOfOrdinal (n : Nat) : List Char :=
  if n = 0 then [] else lettersOfOrdinal ((n - 1) / 26) ++ [letter ((n - 1) % 26)]
termination_by n
decreasing_by exact Nat.lt_of_le_of_lt (Nat.div_le_self _ _) (by omega)

/-- The letters of a column; a negative column has none. -/
def letters (i : Int) : List Char := lettersOfOrdinal (i + 1).toNat

end FormulaSheet.Column
