import FormulaSheet.Data.Json.Writer
import FormulaSheet.Data.Raw
/-!
JSON text of values whose texts are code points. A surrogate is written as the unit that it is, so
two that belong together are written like the character that they stand for.
-/

namespace FormulaSheet

/-- A surrogate as the unit that it is, a character as in every JSON text. -/
def CodePoint.escape (p : CodePoint) : List Char :=
  if p.isSurrogate then Json.escapeUnit p.val else Json.escapeChar p.char

def RawText.chars (s : RawText) : List Char := '"' :: (s.flatMap CodePoint.escape ++ ['"'])

namespace RawValue

mutual

def chars : RawValue → List Char
  | null => "null".toList
  | flag b => (if b then "true" else "false").toList
  | whole i => Decimal.signedDigits i
  | number x => Json.numberChars x
  | text s => s.chars
  | list [] => ['[', ']']
  | list (v :: rest) => '[' :: (v.chars ++ itemChars rest)
  | table [] => ['{', '}']
  | table ((k, v) :: rest) => '{' :: (k.chars ++ ':' :: ' ' :: (v.chars ++ entryChars rest))

/-- Further items and the closing bracket. -/
def itemChars : List RawValue → List Char
  | [] => [']']
  | v :: rest => ',' :: ' ' :: (v.chars ++ itemChars rest)

/-- Further entries and the closing brace. -/
def entryChars : List (RawText × RawValue) → List Char
  | [] => ['}']
  | (k, v) :: rest => ',' :: ' ' :: (k.chars ++ ':' :: ' ' :: (v.chars ++ entryChars rest))

end

/-- Entries in the order of their keys. -/
def byKey (entries : List (RawText × RawValue)) : List (RawText × RawValue) :=
  entries.mergeSort fun a b => !b.1.isBefore a.1

mutual

/-- The value with the entries of every table in the order of their keys. -/
def ordered : RawValue → RawValue
  | list items => list (orderedItems items)
  | table entries => table (byKey (orderedEntries entries))
  | v => v

def orderedItems : List RawValue → List RawValue
  | [] => []
  | v :: rest => v.ordered :: orderedItems rest

def orderedEntries : List (RawText × RawValue) → List (RawText × RawValue)
  | [] => []
  | (k, v) :: rest => (k, v.ordered) :: orderedEntries rest

end

/-- Whether every number in the value is finite. -/
def isFinite (v : RawValue) : Bool :=
  v.leaves.all fun
    | number x => !x.isNaN && !x.isInf
    | _ => true

/-- Whether every whole number in the value has few enough digits to be written. -/
def isShort (v : RawValue) : Bool :=
  v.leaves.all fun
    | whole i => Decimal.isWritable i
    | _ => true

mutual

/-- The value by its code points, with keys as they are written. -/
def ofValue : Value → RawValue
  | .null => null
  | .flag b => flag b
  | .whole i => whole i
  | .number x => number x
  | .text s => text (.ofString s)
  | .list items => list (ofValueItems items)
  | .table entries => table (ofValueEntries entries)

def ofValueItems : List Value → List RawValue
  | [] => []
  | v :: rest => ofValue v :: ofValueItems rest

def ofValueEntries : List (Value × Value) → List (RawText × RawValue)
  | [] => []
  | (k, v) :: rest => (.ofString (Json.keyText k), ofValue v) :: ofValueEntries rest

end

end RawValue

end FormulaSheet
