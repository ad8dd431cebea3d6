import FormulaSheet.Decimal.Numeral
/-!
Formula tokens are plain text. Their class is decided where they are read: four operators, two
parentheses, numbers; the rest are labels (`Label.isLabel`) or words.
-/

namespace FormulaSheet

abbrev Token := String

namespace Token

inductive Operator
  | add | sub | mul | div
deriving DecidableEq, Repr

def Operator.apply : Operator → Float → Float → Float
  | .add, x, y => x + y
  | .sub, x, y => x - y
  | .mul, x, y => x * y
  | .div, x, y => x / y

def additive? : Token → Option Operator
  | "+" => some .add
  | "-" => some .sub
  | _ => none

def multiplicative? : Token → Option Operator
  | "*" => some .mul
  | "/" => some .div
  | _ => none

def isOperator (t : Token) : Bool := (additive? t).isSome || (multiplicative? t).isSome

/-- The value of a number token: a decimal numeral with an optional sign. -/
def number? (t : Token) : Option Float := Decimal.readNumber? t.toList

def isNumber (t : Token) : Bool := (number? t).isSome

end Token

end FormulaSheet
