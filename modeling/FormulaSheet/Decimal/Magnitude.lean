/-!
The exact value of a finite floating-point number: a sign and a magnitude `m * 2 ^ q` with a whole
`m`. Infinities and the undefined number have no magnitude; `magnitude` is meant for finite numbers
and gives an arbitrary value otherwise.
-/

namespace FormulaSheet.Decimal

/-- The number `m * 2 ^ q`. The gap to the next smaller float is half the gap to the next greater
one where `narrowBelow` holds. -/
structure Magnitude where
  m : Nat
  q : Int
  narrowBelow : Bool

def magnitude (x : Float) : Magnitude :=
  let bits := x.toBits.toNat
  let fraction : Nat := bits % Nat.pow 2 52
  let field : Nat := bits / Nat.pow 2 52 % Nat.pow 2 11
  if field = 0 then ⟨fraction, -1074, false⟩
  else ⟨fraction + Nat.pow 2 52, (field : Int) - 1075, fraction == 0 && decide (1 < field)⟩

/-- Whether the sign bit is set; it is for negative zero. -/
def isNegative (x : Float) : Bool := x.toBits.toNat / Nat.pow 2 63 == 1

/-- Two to the power `q` as a ratio. -/
def powerOfTwo (q : Int) : Nat × Nat := (Nat.pow 2 q.toNat, Nat.pow 2 (-q).toNat)

/-- The magnitude as a ratio of whole numbers. -/
def Magnitude.ratio (a : Magnitude) : Nat × Nat :=
  let (num, den) := powerOfTwo a.q
  (a.m * num, den)

/-- The part of a finite number before the point. -/
def truncate (x : Float) : Int :=
  let (num, den) := (magnitude x).ratio
  if isNegative x then -((num / den : Nat) : Int) else ((num / den : Nat) : Int)

/-- Whether a finite number has nothing after the point. -/
def isWhole (x : Float) : Bool :=
  let (num, den) := (magnitude x).ratio
  num % den == 0

end FormulaSheet.Decimal
