/-!
Blank characters and line boundaries. `trim` removes blanks at both ends of a text and `lines` cuts
it at every line boundary, a carriage return followed by a line feed counting once. Nothing is
claimed about blanks inside a text: `trim` leaves them alone.
-/

namespace FormulaSheet.Text

/-- Code points of the blank characters: the spaces and separators, the tab, and the line and
information separators among the control characters. -/
def blanks : List Nat :=
  [0x09, 0x0A, 0x0B, 0x0C, 0x0D, 0x1C, 0x1D, 0x1E, 0x1F, 0x20, 0x85, 0xA0, 0x1680, 0x2000, 0x2001,
   0x2002, 0x2003, 0x2004, 0x2005, 0x2006, 0x2007, 0x2008, 0x2009, 0x200A, 0x2028, 0x2029, 0x202F,
   0x205F, 0x3000]

/-- Code points of the characters that end a line. -/
def lineEnds : List Nat :=
  [0x0A, 0x0B, 0x0C, 0x0D, 0x1C, 0x1D, 0x1E, 0x85, 0x2028, 0x2029]

def isBlank (c : Char) : Bool := blanks.contains c.toNat

def isLineEnd (c : Char) : Bool := lineEnds.contains c.toNat

def trimRight (cs : List Char) : List Char := (cs.reverse.dropWhile isBlank).reverse

def trim (cs : List Char) : List Char := trimRight (cs.dropWhile isBlank)

/-- The lines of a text without their ends. A text that ends with a line boundary has no empty
last line. -/
def lines (cs : List Char) : List (List Char) := go [] cs
where
  /-- Collects the current line in reverse. -/
  go (line : List Char) : List Char → List (List Char)
    | [] => if line.isEmpty then [] else [line.reverse]
    | '\r' :: '\n' :: rest => line.reverse :: go [] rest
    | c :: rest => if isLineEnd c then line.reverse :: go [] rest else go (c :: line) rest

end FormulaSheet.Text
