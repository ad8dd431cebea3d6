import FormulaSheet.Decimal.Digits
/-!
Why a document cannot be read. Most failures are one and the same: the text is malformed, or it has
a part that no value is made of. The others are numbers that do not exist or do not fit.
-/

namespace FormulaSheet.Yaml

inductive DocumentError
  | malformed
  /-- Something that this reader leaves out, though a document may have it. -/
  | unsupported
  /-- A whole number in base 2 or 16 without a digit. -/
  | noDigits (base : Nat)
  /-- An escape whose number is above all code points. -/
  | noCodePoint
  /-- An escape whose number does not even fit in 31 bits. -/
  | codeTooLarge
  /-- A number with so many sixty-fold parts that no float can hold the weight of the first. -/
  | weightTooLarge
deriving DecidableEq, Repr

def DocumentError.message : DocumentError → String
  | malformed => ""
  | unsupported => ""
  | noDigits base =>
    "invalid literal for int() with base " ++ Decimal.natText base ++ ": ''"
  | noCodePoint => "chr() arg not in range(0x110000)"
  | codeTooLarge => "Python int too large to convert to C int"
  | weightTooLarge => "int too large to convert to float"

end FormulaSheet.Yaml
