import FormulaSheet.Address.Label
import FormulaSheet.Data.Value
import FormulaSheet.Decimal.Significant
import FormulaSheet.Formula.Evaluation
/-!
One cell: its formula, and the value and fault that the last evaluation left on it. A cell without a
formula carries the fault of the empty formula. Setting a formula leaves value and other faults to
the next evaluation.
-/

namespace FormulaSheet

/-- A count of digits that no number can be written with. -/
inductive PrecisionError
  | negative
  | tooBig
  | beyondCounting
deriving DecidableEq, Repr

def PrecisionError.message : PrecisionError → String
  | negative => "Format specifier missing precision"
  | tooBig => "precision too big"
  | beyondCounting => "Too many decimal digits in format string"

/-- A number for display: whole numbers with all their digits, others rounded to `precision`
significant ones. Only numbers that are rounded need a usable precision. -/
def formatNumber (x : Float) (precision : Int) : Except PrecisionError String :=
  if x.isNaN || x.isInf then .ok (Decimal.shortest x)
  else if Decimal.isWhole x then .ok (Decimal.intText (Decimal.truncate x))
  else if precision < 0 then .error .negative
  else if Nat.pow 2 63 ≤ precision then .error .beyondCounting
  else if Nat.pow 2 31 ≤ precision then .error .tooBig
  else .ok (Decimal.significant x precision.toNat)

/-- The precision used where none is asked for. -/
def defaultPrecision : Int := 10

structure Cell where
  label : String
  formula : List Token := []
  value : Float := 0.0
  fault : Option Fault := some .emptyFormula

namespace Cell

/-- A cell that was never filled. -/
def blank (label : String) : Cell := { label }

def isFilled (c : Cell) : Bool := !c.formula.isEmpty

def setFormula (tokens : List Token) (c : Cell) : Cell :=
  if tokens.isEmpty then { c with formula := [], value := 0.0, fault := some .emptyFormula }
  else { c with formula := tokens, fault := c.fault.filter (· ≠ .emptyFormula) }

def setValue (x : Float) (c : Cell) : Cell := { c with value := x }

def setFault (fault : Option Fault) (c : Cell) : Cell := { c with fault }

def setOutcome (o : Outcome) (c : Cell) : Cell := (c.setValue o.result).setFault o.fault

def outcome (c : Cell) : Outcome := ⟨c.value, c.fault⟩

/-- The labels in the formula, each once, in the order in which they first occur. -/
def dependencies (c : Cell) : List String := (c.formula.filter Label.isLabel).eraseDups

def formulaText (c : Cell) : String := displayFormula c.formula

def reading (c : Cell) : Reading := ⟨c.value, c.fault, c.isFilled⟩

/-- What the cell shows: nothing without a formula, a fault by its name, else its value. -/
def displayText (c : Cell) (precision : Int) : Except PrecisionError String :=
  match c.fault with
  | some .emptyFormula => .ok ""
  | some fault => .ok ("#" ++ fault.name)
  | none => formatNumber c.value precision

/-- All of a cell in one line. -/
def describe (c : Cell) : String :=
  "Cell(" ++ Text.quoted c.label ++ ", formula=" ++ (Value.list (c.formula.map .text)).inspect ++
    ", value=" ++ Decimal.shortest c.value ++ ", error=" ++ Text.quoted (faultText c.fault) ++ ")"

end Cell

end FormulaSheet
