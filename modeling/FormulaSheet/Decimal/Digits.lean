/-!
Decimal digits of natural numbers and integers, most significant first and without leading zeros.
-/

namespace FormulaSheet.Decimal

def digitChar (d : Nat) : Char := Char.ofNat ('0'.toNat + d)

/-- The digits of `n`; zero has one digit. -/
def digits (n : Nat) : List Char :=
  if n < 10 then [digitChar n] else digits (n / 10) ++ [digitChar (n % 10)]

/-- A negative number has a sign in front of its digits. -/
def signedDigits (i : Int) : List Char :=
  if i < 0 then '-' :: digits i.natAbs else digits i.natAbs

def natText (n : Nat) : String := String.ofList (digits n)

def intText (i : Int) : String := String.ofList (signedDigits i)

/-- The most digits of a number that is written as part of a label. -/
def digitLimit : Nat := 4300

/-- Whether a number has few enough digits to be written so. -/
def isWritable (i : Int) : Bool := (digits i.natAbs).length ≤ digitLimit

/-- The exponent of the leading digit of `num / den`, for positive `num` and `den`. -/
def leadingExponent (num den : Nat) : Int :=
  if den ≤ num then ((digits (num / den)).length : Int) - 1
  else -((digits ((den - 1) / num)).length : Int)

/-- The quotient of two numbers whose ratio is `num / den` divided by ten to the power `e`. -/
def scaled (num den : Nat) (e : Int) : Nat × Nat :=
  (num * Nat.pow 10 (-e).toNat, den * Nat.pow 10 e.toNat)

/-- The whole number nearest to `num / den`; halves go to the even neighbour. -/
def roundToEven (num den : Nat) : Nat :=
  let q := num / den
  let r := num % den
  if den < 2 * r || (2 * r == den && q % 2 == 1) then q + 1 else q

end FormulaSheet.Decimal
