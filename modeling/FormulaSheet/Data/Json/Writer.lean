import FormulaSheet.Data.Value
/-!
JSON text in ASCII. Entries stand in the order in which the table has them. Numbers that are not
finite are written by name, which is no JSON: a caller that must not write them asks `isFinite`
before.
-/

namespace FormulaSheet.Json

/-- A sixteen-bit unit as an escape. -/
def escapeUnit (n : Nat) : List Char := '\\' :: 'u' :: Text.hexadecimal 4 n

/-- Everything outside visible ASCII is escaped, characters beyond sixteen bits as two units. -/
def escapeChar (c : Char) : List Char :=
  let n := c.toNat
  if c = '"' then ['\\', '"']
  else if c = '\\' then ['\\', '\\']
  else if c = '\n' then ['\\', 'n']
  else if c = '\r' then ['\\', 'r']
  else if c = '\t' then ['\\', 't']
  else if c = '\x0C' then ['\\', 'f']
  else if c = '\x08' then ['\\', 'b']
  else if 0x20 ≤ n ∧ n < 0x7F then [c]
  else if n < 0x10000 then escapeUnit n
  else escapeUnit (0xD800 + (n - 0x10000) / 0x400) ++ escapeUnit (0xDC00 + (n - 0x10000) % 0x400)

def stringChars (s : String) : List Char := '"' :: (s.toList.flatMap escapeChar ++ ['"'])

def numberChars (x : Float) : List Char :=
  if x.isNaN then "NaN".toList
  else if x.isInf then (if x < 0.0 then "-Infinity" else "Infinity").toList
  else (Decimal.shortest x).toList

/-- A key as text; keys that are no texts are written as they would be as values. -/
def keyText : Value → String
  | .text s => s
  | .null => "null"
  | .flag b => if b then "true" else "false"
  | .whole i => Decimal.intText i
  | .number x => String.ofList (numberChars x)
  | _ => ""

mutual

def chars : Value → List Char
  | .null => "null".toList
  | .flag b => (if b then "true" else "false").toList
  | .whole i => Decimal.signedDigits i
  | .number x => numberChars x
  | .text s => stringChars s
  | .list [] => ['[', ']']
  | .list (v :: rest) => '[' :: (chars v ++ itemChars rest)
  | .table [] => ['{', '}']
  | .table ((k, v) :: rest) =>
    '{' :: (stringChars (keyText k) ++ ':' :: ' ' :: (chars v ++ entryChars rest))

/-- Further items and the closing bracket. -/
def itemChars : List Value → List Char
  | [] => [']']
  | v :: rest => ',' :: ' ' :: (chars v ++ itemChars rest)

/-- Further entries and the closing brace. -/
def entryChars : List (Value × Value) → List Char
  | [] => ['}']
  | (k, v) :: rest =>
    ',' :: ' ' :: (stringChars (keyText k) ++ ':' :: ' ' :: (chars v ++ entryChars rest))

end

/-- The value on one line. -/
def text (v : Value) : String := String.ofList (chars v)

def newLine (depth : Nat) : List Char := '\n' :: List.replicate (2 * depth) ' '

mutual

/-- The value with every item and entry on a line of its own, two spaces deeper each level. -/
def indentedChars (depth : Nat) : Value → List Char
  | .list (v :: rest) =>
    '[' :: (newLine (depth + 1) ++ indentedChars (depth + 1) v ++ indentedItems depth rest)
  | .table ((k, v) :: rest) =>
    '{' :: (newLine (depth + 1) ++ stringChars (keyText k) ++ ':' :: ' ' ::
      (indentedChars (depth + 1) v ++ indentedEntries depth rest))
  | v => chars v

def indentedItems (depth : Nat) : List Value → List Char
  | [] => newLine depth ++ [']']
  | v :: rest =>
    ',' :: (newLine (depth + 1) ++ indentedChars (depth + 1) v ++ indentedItems depth rest)

def indentedEntries (depth : Nat) : List (Value × Value) → List Char
  | [] => newLine depth ++ ['}']
  | (k, v) :: rest =>
    ',' :: (newLine (depth + 1) ++ stringChars (keyText k) ++ ':' :: ' ' ::
      (indentedChars (depth + 1) v ++ indentedEntries depth rest))

end

def indentedText (v : Value) : String := String.ofList (indentedChars 0 v)

mutual

/-- Whether every number inside the value is finite. -/
def isFinite : Value → Bool
  | .number x => !x.isNaN && !x.isInf
  | .list items => finiteItems items
  | .table entries => finiteEntries entries
  | _ => true

def finiteItems : List Value → Bool
  | [] => true
  | v :: rest => isFinite v && finiteItems rest

def finiteEntries : List (Value × Value) → Bool
  | [] => true
  | (k, v) :: rest => isFinite k && isFinite v && finiteEntries rest

end

end FormulaSheet.Json
