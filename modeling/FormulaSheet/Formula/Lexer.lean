import FormulaSheet.Decimal.Numeral
import FormulaSheet.Formula.Token
import FormulaSheet.Text.Blank
/-!
Formula text cut into lexemes. At each place the classes are tried in a fixed order: reference,
word, number, operator, parenthesis; the first that matches takes the longest text it can. Spaces,
tabs, form feeds and line breaks separate lexemes and are dropped. A character that no class can
begin with stops the reading, and the failure says where it stands. A reference here need not be a
label: its row may begin with zero.
-/

namespace FormulaSheet

open Text

/-- A place in a text, line and column counted from one. Only line feeds begin a new line. -/
structure Place where
  line : Nat
  column : Nat
deriving DecidableEq, Repr

namespace Place

def start : Place := ⟨1, 1⟩

/-- The place behind one character. -/
def after (p : Place) (c : Char) : Place :=
  if c = '\n' then ⟨p.line + 1, 1⟩ else ⟨p.line, p.column + 1⟩

/-- The place behind a text. -/
def afterAll (p : Place) (cs : List Char) : Place := cs.foldl after p

end Place

/-- A character that begins no lexeme, and where it stands. -/
structure LexFailure where
  character : Char
  place : Place
deriving DecidableEq, Repr

/-- The class of a lexeme. -/
inductive Lexeme.Kind
  | reference | word | number | operator | parenthesis
deriving DecidableEq, Repr

structure Lexeme where
  kind : Lexeme.Kind
  text : List Char

namespace Lexeme

def isLetter (c : Char) : Bool := ('A' ≤ c && c ≤ 'Z') || ('a' ≤ c && c ≤ 'z')

def isWordStart (c : Char) : Bool := isLetter c || c == '_'

def isWordChar (c : Char) : Bool := isLetter c || isAsciiDigit c || c == '_'

def isOperatorChar (c : Char) : Bool := c == '+' || c == '-' || c == '*' || c == '/'

def isParenthesis (c : Char) : Bool := c == '(' || c == ')'

/-- Characters between lexemes. -/
def isSeparator (c : Char) : Bool :=
  c == ' ' || c == '\t' || c == '\x0C' || c == '\r' || c == '\n'

/-- One to three letters and a row number, unless the identifier goes on behind them. -/
def reference? (cs : List Char) : Option (Lexeme × List Char) :=
  let column := cs.takeWhile isLetter
  let afterColumn := cs.dropWhile isLetter
  let row := afterColumn.takeWhile isAsciiDigit
  let rest := afterColumn.dropWhile isAsciiDigit
  if 1 ≤ column.length ∧ column.length ≤ 3 ∧ row ≠ [] ∧ ¬ rest.head?.any isWordChar then
    some (⟨.reference, column ++ row⟩, rest)
  else none

def word? : List Char → Option (Lexeme × List Char)
  | [] => none
  | c :: cs =>
    if isWordStart c then some (⟨.word, c :: cs.takeWhile isWordChar⟩, cs.dropWhile isWordChar)
    else none

def number? (cs : List Char) : Option (Lexeme × List Char) :=
  (Decimal.Numeral.scan? cs).map fun (n, rest) => (⟨.number, n.chars⟩, rest)

def sign? : List Char → Option (Lexeme × List Char)
  | [] => none
  | c :: cs =>
    if isOperatorChar c then some (⟨.operator, [c]⟩, cs)
    else if isParenthesis c then some (⟨.parenthesis, [c]⟩, cs)
    else none

/-- The lexeme at the front of a text, and what follows it. -/
def next? (cs : List Char) : Option (Lexeme × List Char) :=
  (reference? cs).or ((word? cs).or ((number? cs).or (sign? cs)))

theorem text_append_of_next? {cs rest : List Char} {l : Lexeme} (h : next? cs = some (l, rest)) :
    l.text ++ rest = cs ∧ l.text ≠ [] := by
  simp only [next?, Option.or_eq_some_iff] at h
  rcases h with h | ⟨-, h | ⟨-, h | ⟨-, h⟩⟩⟩
  · simp only [reference?] at h
    split at h
    · next hc =>
      cases h
      refine ⟨by simp, ?_⟩
      have := hc.2.2.1
      simp_all
    · contradiction
  · unfold word? at h
    split at h
    · contradiction
    · split at h
      · cases h; simp
      · contradiction
  · obtain ⟨⟨n, tail⟩, hn, h⟩ := Option.map_eq_some_iff.1 h
    cases h
    exact Decimal.Numeral.chars_append_of_scan? hn
  · unfold sign? at h
    split at h
    · contradiction
    · split at h
      · cases h; simp
      · split at h
        · cases h; simp
        · contradiction

theorem length_lt_of_next? {cs rest : List Char} {l : Lexeme} (h : next? cs = some (l, rest)) :
    rest.length < cs.length := by
  obtain ⟨happ, hne⟩ := text_append_of_next? h
  have := List.length_pos_iff.2 hne
  rw [← happ, List.length_append]
  omega

/-- All lexemes of a text that begins at the given place. -/
def scan (p : Place) (cs : List Char) : Except LexFailure (List Lexeme) :=
  match cs with
  | [] => .ok []
  | c :: tail =>
    if isSeparator c then scan (p.after c) tail
    else
      match _h : next? (c :: tail) with
      | none => .error ⟨c, p⟩
      | some (l, rest) => (scan (p.afterAll l.text) rest).map (l :: ·)
termination_by cs.length
decreasing_by
  · simp
  · exact length_lt_of_next? _h

/-- The token of a lexeme: references become upper-case, all else stays as written. -/
def token (l : Lexeme) : Token :=
  String.ofList (if l.kind = .reference then l.text.map Char.toUpper else l.text)

end Lexeme

/-- The text between the outer blanks, without one leading equals sign. -/
def formulaBody (text : String) : List Char :=
  match trim text.toList with
  | '=' :: rest => rest
  | cs => cs

/-- The tokens of a formula text. -/
def tokenize (text : String) : Except LexFailure (List Token) :=
  (Lexeme.scan .start (formulaBody text)).map (·.map Lexeme.token)

/-- Tokens as display text: a space before each token but the first, after an opening and before a
closing parenthesis none. -/
def displayFormula (tokens : List Token) : String :=
  go none tokens
where
  go (before : Option Token) : List Token → String
    | [] => ""
    | t :: rest =>
      let gap := if before.isSome && before != some "(" && t != ")" then " " else ""
      gap ++ t ++ go (some t) rest

end FormulaSheet
