/-!
Terminal control sequences: escape, bracket, parameter bytes, intermediate bytes, and a final byte
that a sequence cannot go without. Text that is not for a terminal is printed without them.
-/

namespace FormulaSheet.Text

def isParameter (c : Char) : Bool := '0' ≤ c && c ≤ '?'

def isIntermediate (c : Char) : Bool := ' ' ≤ c && c ≤ '/'

def isFinal (c : Char) : Bool := '@' ≤ c && c ≤ '~'

/-- The length of the control sequence at the front of a text; zero if there is none. -/
def controlLength : List Char → Nat
  | '\x1B' :: '[' :: rest =>
    let more := rest.dropWhile isParameter
    match more.dropWhile isIntermediate with
    | c :: after => if isFinal c then rest.length + 2 - after.length else 0
    | [] => 0
  | _ => 0

/-- Characters outside control sequences, of which the given count still belongs to one. -/
def outsideControls : Nat → List Char → List Char
  | _, [] => []
  | n + 1, _ :: rest => outsideControls n rest
  | 0, c :: rest =>
    match controlLength (c :: rest) with
    | 0 => c :: outsideControls 0 rest
    | n + 1 => outsideControls n rest

def withoutControls (s : String) : String := String.ofList (outsideControls 0 s.toList)

end FormulaSheet.Text
