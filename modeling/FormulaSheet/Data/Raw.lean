import FormulaSheet.Data.Value
/-!
Values with texts that are sequences of code points, those of surrogates among them, and with texts
as the only keys. A surrogate is no character: where characters are asked for, the replacement
character takes its place.
-/

namespace FormulaSheet

/-- The code point of a character or of a surrogate. -/
abbrev CodePoint := Fin 0x110000

namespace CodePoint

/-- The code point of a number that is small enough. -/
def ofNat (n : Nat) : CodePoint := Fin.ofNat 0x110000 n

def ofChar (c : Char) : CodePoint := ofNat c.toNat

def isHigh (p : CodePoint) : Bool := 0xD800 ≤ p.val && p.val < 0xDC00

def isLow (p : CodePoint) : Bool := 0xDC00 ≤ p.val && p.val < 0xE000

def isSurrogate (p : CodePoint) : Bool := p.isHigh || p.isLow

def char (p : CodePoint) : Char := if p.isSurrogate then '\uFFFD' else Char.ofNat p.val

end CodePoint

/-- A text by its code points. -/
abbrev RawText := List CodePoint

namespace RawText

def ofString (s : String) : RawText := s.toList.map CodePoint.ofChar

/-- The text with characters in place of its code points. -/
def string (s : RawText) : String := String.ofList (s.map CodePoint.char)

/-- Whether no high surrogate stands in front of a low one. -/
def isUnpaired : RawText → Bool
  | p :: q :: rest => !(p.isHigh && q.isLow) && isUnpaired (q :: rest)
  | _ => true

/-- Whether a text comes before another in the order of code points. -/
def isBefore : RawText → RawText → Bool
  | _, [] => false
  | [], _ :: _ => true
  | p :: s, q :: t => p.val < q.val || (p.val == q.val && isBefore s t)

end RawText

inductive RawValue
  | null
  | flag (b : Bool)
  | whole (i : Int)
  | number (x : Float)
  | text (s : RawText)
  | list (items : List RawValue)
  | table (entries : List (RawText × RawValue))

namespace RawValue

/-- Sets the value of a key; a known key keeps its place. -/
def insert (key : RawText) (value : RawValue) : List (RawText × RawValue) → List (RawText × RawValue)
  | [] => [(key, value)]
  | (k, v) :: rest => if k = key then (k, value) :: rest else (k, v) :: insert key value rest

/-- Entries with distinct keys; of several values of a key the last one stays. -/
def ofEntries (entries : List (RawText × RawValue)) : List (RawText × RawValue) :=
  entries.foldl (fun table (key, value) => insert key value table) []

mutual

/-- The value with characters in place of code points. -/
def toValue : RawValue → Value
  | null => .null
  | flag b => .flag b
  | whole i => .whole i
  | number x => .number x
  | text s => .text s.string
  | list items => .list (itemValues items)
  | table entries => .table (entryValues entries)

def itemValues : List RawValue → List Value
  | [] => []
  | v :: rest => v.toValue :: itemValues rest

def entryValues : List (RawText × RawValue) → List (Value × Value)
  | [] => []
  | (k, v) :: rest => (.text k.string, v.toValue) :: entryValues rest

end

mutual

/-- The parts that have no parts, keys among them. -/
def leaves : RawValue → List RawValue
  | list items => itemLeaves items
  | table entries => entryLeaves entries
  | v => [v]

def itemLeaves : List RawValue → List RawValue
  | [] => []
  | v :: rest => v.leaves ++ itemLeaves rest

def entryLeaves : List (RawText × RawValue) → List RawValue
  | [] => []
  | (k, v) :: rest => text k :: (v.leaves ++ entryLeaves rest)

end

end RawValue

end FormulaSheet
