/-!
Classes of characters in YAML text, and how line breaks count inside scalars.
-/

namespace FormulaSheet.Yaml

/-- Characters that may stand in a document. -/
def isAllowed (c : Char) : Bool :=
  let n := c.toNat
  n == 0x09 || n == 0x0A || n == 0x0D || (0x20 ≤ n && n ≤ 0x7E) || n == 0x85 ||
    (0xA0 ≤ n && n ≤ 0xD7FF) || (0xE000 ≤ n && n ≤ 0xFFFD) || 0x10000 ≤ n

def isBreak (c : Char) : Bool :=
  c == '\n' || c == '\r' || c == '\u0085' || c == '\u2028' || c == '\u2029'

def isGap (c : Char) : Bool := c == ' ' || c == '\t'

/-- Whether a word ends here: at a gap, a line break or the end of the text. -/
def atWordEnd : List Char → Bool
  | [] => true
  | c :: _ => isGap c || isBreak c

/-- Characters of the name behind an alias. -/
def isNameChar (c : Char) : Bool :=
  ('0' ≤ c && c ≤ '9') || ('A' ≤ c && c ≤ 'Z') || ('a' ≤ c && c ≤ 'z') || c == '-' || c == '_'

/-- Whether a name may end before this text. -/
def nameEnds (cs : List Char) : Bool :=
  atWordEnd cs || cs.head?.any fun c => "?:,]\x7d%@\x60".toList.contains c

/-- A line break as it counts in a scalar. -/
def breakChar (c : Char) : Char := if c == '\u2028' || c == '\u2029' then c else '\n'

/-- Whether a line begins with a document mark. -/
def atDocumentMark : List Char → Bool
  | '-' :: '-' :: '-' :: rest => atWordEnd rest
  | '.' :: '.' :: '.' :: rest => atWordEnd rest
  | _ => false

/-- A break and further breaks as they count in a scalar: one line feed becomes a space, of more
the first is dropped. -/
def folded (first : Char) (breaks : List Char) : List Char :=
  if breakChar first != '\n' then breakChar first :: breaks
  else if breaks.isEmpty then [' '] else breaks

end FormulaSheet.Yaml
