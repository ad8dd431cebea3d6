import FormulaSheet.Decimal.Layout
import FormulaSheet.Decimal.Magnitude
/-!
A number rounded to a given count of significant digits. The exact binary value is rounded, halves
to the even neighbour; trailing zeros and a point with nothing behind it are dropped.
-/

namespace FormulaSheet.Decimal

/-- Every float is a decimal of fewer digits than this, so more digits change nothing. -/
def exactDigits : Nat := 1100

/-- A positive magnitude rounded to `count` significant digits. -/
def roundSignificand (a : Magnitude) (count : Nat) : Significand :=
  let (num, den) := a.ratio
  let e := leadingExponent num den - (min count exactDigits : Nat) + 1
  let (u, v) := scaled num den e
  ⟨roundToEven u v, e⟩

/-- A finite number with `count` significant digits; none at all means one. An exponent is written
for numbers below `0.0001` and for those that need more than `count` digits before the point. -/
def significant (x : Float) (count : Nat) : String :=
  let count := max count 1
  let sign := if isNegative x then ['-'] else []
  let body :=
    if x == 0.0 then ['0']
    else Layout.render ⟨count, false⟩ (roundSignificand (magnitude x) count)
  String.ofList (sign ++ body)

end FormulaSheet.Decimal
