import FormulaSheet.Data.Yaml.Character
/-!
Plain scalars: words, and the gaps between them. A word ends at a gap, at a colon that could end a
key, and inside flow collections at their marks; a gap that crosses lines is folded.
-/

namespace FormulaSheet.Yaml

def isFlowMark (c : Char) : Bool :=
  c == ',' || c == '[' || c == ']' || c == '{' || c == '}'

/-- Whether a colon before this text ends a plain scalar. -/
def colonEnds (inFlow : Bool) : List Char → Bool
  | [] => true
  | c :: _ => isGap c || isBreak c || (inFlow && isFlowMark c)

/-- The part of a plain scalar up to the next gap. -/
def plainWord (inFlow : Bool) : List Char → List Char
  | [] => []
  | c :: rest =>
    if isGap c || isBreak c || (c == ':' && colonEnds inFlow rest) ||
        (inFlow && (isFlowMark c || c == '?')) then []
    else c :: plainWord inFlow rest

/-- Breaks and spaces at the front of a line, up to a document mark: the breaks, the rest, and
whether a mark was met. -/
def plainBreaks : List Char → List Char × List Char × Bool
  | [] => ([], [], false)
  | c :: rest =>
    if c == ' ' then plainBreaks rest
    else if isBreak c then
      if atDocumentMark rest then ([breakChar c], rest, true)
      else
        let (breaks, more, mark) := plainBreaks rest
        (breakChar c :: breaks, more, mark)
    else ([], c :: rest, false)

/-- The gap behind a word: what it contributes to the scalar, the rest, and whether it crossed a
line. Before a document mark there is no gap. -/
def plainGap (cs : List Char) : List Char × List Char × Bool :=
  let spaces := cs.takeWhile (· == ' ')
  match cs.dropWhile (· == ' ') with
  | [] => (spaces, [], false)
  | c :: rest =>
    if isBreak c then
      if atDocumentMark rest then ([], rest, true)
      else
        match plainBreaks rest with
        | (_, more, true) => ([], more, true)
        | (breaks, more, false) => (folded c breaks, more, true)
    else (spaces, c :: rest, false)

end FormulaSheet.Yaml
