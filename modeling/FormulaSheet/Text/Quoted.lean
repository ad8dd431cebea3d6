import FormulaSheet.Text.Printable
/-!
Quoted text, as messages show it. Single quotes enclose the text unless it holds single quotes and
no double ones. A backslash stands before itself and before the enclosing quote, tab and the two
line characters have short forms, and other characters without a visible form are written in
hexadecimal with two, four or eight digits.
-/

namespace FormulaSheet.Text

/-- Lower-case hexadecimal digits of `n`, padded with zeros to `width`. -/
def hexadecimal (width n : Nat) : List Char :=
  let ds := Nat.toDigits 16 n
  List.replicate (width - ds.length) '0' ++ ds

namespace Quoted

def enclosing (cs : List Char) : Char :=
  if cs.contains '\'' && !cs.contains '"' then '"' else '\''

def encodeChar (quote c : Char) : List Char :=
  if c == quote || c == '\\' then ['\\', c]
  else if c == '\n' then ['\\', 'n']
  else if c == '\r' then ['\\', 'r']
  else if c == '\t' then ['\\', 't']
  else if isPrintable c then [c]
  else
    let n := c.toNat
    if n < 0x100 then '\\' :: 'x' :: hexadecimal 2 n
    else if n < 0x10000 then '\\' :: 'u' :: hexadecimal 4 n
    else '\\' :: 'U' :: hexadecimal 8 n

def encode (cs : List Char) : List Char :=
  let quote := enclosing cs
  quote :: (cs.flatMap (encodeChar quote) ++ [quote])

end Quoted

/-- The text in quotes. -/
def quoted (s : String) : String := String.ofList (Quoted.encode s.toList)

end FormulaSheet.Text
