import FormulaSheet.Decimal.Digits
/-!
From the significant digits of a number to its text: where the point goes, and when an exponent
takes over. The digits come from elsewhere (`Shortest`, `Significant`).
-/

namespace FormulaSheet.Decimal

/-- The positive number `coefficient * 10 ^ exponent`. -/
structure Significand where
  coefficient : Nat
  exponent : Int

/-- The same number without trailing zeros in the coefficient. -/
def Significand.normalize (s : Significand) : Significand :=
  if h : s.coefficient ≠ 0 ∧ s.coefficient % 10 = 0 then
    normalize ⟨s.coefficient / 10, s.exponent + 1⟩
  else s
termination_by s.coefficient
decreasing_by exact Nat.div_lt_self (Nat.pos_of_ne_zero h.1) (by decide)

/-- How a number format lays out its digits. -/
structure Layout where
  /-- A number of at least ten to this power is written with an exponent, like one below
  `0.0001`. -/
  ceiling : Int
  /-- Whether a whole number without exponent ends in `.0`. -/
  pointZero : Bool

/-- The exponent has a sign and two digits or more. -/
def exponentText (e : Int) : List Char :=
  let ds := digits e.natAbs
  'e' :: (if e < 0 then '-' else '+') :: (if ds.length < 2 then '0' :: ds else ds)

def Layout.render (l : Layout) (s : Significand) : List Char :=
  let s := s.normalize
  let ds := digits s.coefficient
  -- the exponent of the leading digit
  let lead := s.exponent + ds.length - 1
  if -4 ≤ lead && lead < l.ceiling then
    if 0 ≤ s.exponent then
      ds ++ List.replicate s.exponent.toNat '0' ++ (if l.pointZero then ['.', '0'] else [])
    else if 0 ≤ lead then
      let whole := lead.toNat + 1
      ds.take whole ++ '.' :: ds.drop whole
    else
      '0' :: '.' :: (List.replicate (-lead - 1).toNat '0' ++ ds)
  else
    match ds with
    | [] => []
    | d :: more => d :: ((if more.isEmpty then [] else '.' :: more) ++ exponentText lead)

end FormulaSheet.Decimal
