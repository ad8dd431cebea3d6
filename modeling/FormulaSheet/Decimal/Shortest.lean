import FormulaSheet.Decimal.Layout
import FormulaSheet.Decimal.Magnitude
/-!
The fewest decimal digits that still identify a floating-point number, and among those the nearest
to it. The digits are found by exact arithmetic on the grid of `n`-digit decimals, for `n` from 1
to 17: whichever of the two grid points around the number lies in the interval of reals that round
to it.
-/

namespace FormulaSheet.Decimal

/-- The point of the grid of multiples of `10 ^ e` that identifies the number, if there is one. -/
def gridPoint? (a : Magnitude) (e : Int) : Option Nat :=
  -- in units of a quarter of the last binary place, between `low` and `high`
  let value := 4 * a.m
  let low := if a.narrowBelow then value - 1 else value - 2
  let high := value + 2
  let (num, den) := powerOfTwo (a.q - 2)
  let (u, v) := scaled num den e
  let identifies (d : Nat) : Bool :=
    if a.m % 2 == 0 then low * u ≤ d * v && d * v ≤ high * u
    else low * u < d * v && d * v < high * u
  let d := value * u / v
  match identifies d, identifies (d + 1) with
  | true, true =>
    let twice := 2 * value * u
    let middle := (2 * d + 1) * v
    some (if twice < middle || (twice == middle && d % 2 == 0) then d else d + 1)
  | true, false => some d
  | false, true => some (d + 1)
  | false, false => none

/-- The shortest digits of a positive magnitude. -/
def shortestSignificand (a : Magnitude) : Significand :=
  let (num, den) := a.ratio
  let lead := leadingExponent num den
  let found := (List.range 17).findSome? fun (n : Nat) =>
    let e := lead - n
    (gridPoint? a e).map fun d => Significand.mk d e
  found.getD ⟨num, 0⟩

/-- Without exponent up to sixteen digits before the point; whole numbers end in `.0`. -/
def shortestLayout : Layout := ⟨16, true⟩

/-- The text of a number that reads back as the same number. -/
def shortest (x : Float) : String :=
  if x.isNaN then "nan"
  else
    let sign := if isNegative x then ['-'] else []
    let body :=
      if x.isInf then ['i', 'n', 'f']
      else if x == 0.0 then ['0', '.', '0']
      else shortestLayout.render (shortestSignificand (magnitude x))
    String.ofList (sign ++ body)

end FormulaSheet.Decimal
