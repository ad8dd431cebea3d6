import FormulaSheet.Decimal.Integer
import FormulaSheet.Decimal.Shortest
import FormulaSheet.Text.Quoted
/-!
Values of documents and event contexts. Tables keep their entries in the order in which their keys
were first given; `insert` keeps keys distinct, a table built by hand need not be. A key is any
value without parts; equal numbers are one key however they were written, and NaN is one key.
-/

namespace FormulaSheet

open Text

inductive Value
  | null
  | flag (b : Bool)
  | whole (i : Int)
  | number (x : Float)
  | text (s : String)
  | list (items : List Value)
  | table (entries : List (Value × Value))
deriving Inhabited

/-- Why a value is no whole number. -/
inductive IntegerError
  | notANumber
  | infinite
  | unreadable (text : String)
  /-- Nothing, lists and tables are no numbers at all. -/
  | unsuited
deriving DecidableEq, Repr

/-- The message; of a text at most two hundred characters are shown, its quotes counted. -/
def IntegerError.message : IntegerError → String
  | notANumber => "cannot convert float NaN to integer"
  | infinite => "cannot convert float infinity to integer"
  | unreadable text =>
    "invalid literal for int() with base 10: " ++ String.ofList ((quoted text).toList.take 200)
  | unsuited => ""

namespace Value

/-- A value that can be a key. -/
def isKey : Value → Bool
  | list _ => false
  | table _ => false
  | _ => true

/-- The number of a numeric key; truth values count as one and zero. -/
def wholeKey? : Value → Option Int
  | flag b => some (if b then 1 else 0)
  | whole i => some i
  | number x =>
    if !x.isNaN && !x.isInf && Decimal.isWhole x then some (Decimal.truncate x) else none
  | _ => none

/-- Whether two values are the same key. -/
def sameKey (a b : Value) : Bool :=
  match a, b with
  | null, null => true
  | text s, text t => s == t
  | a, b =>
    match a.wholeKey?, b.wholeKey? with
    | some i, some j => i == j
    | none, none =>
      match a, b with
      | number x, number y => x == y || (x.isNaN && y.isNaN)
      | _, _ => false
    | _, _ => false

/-- Sets the value of a key. A known key keeps its place and its spelling. -/
def insert (key value : Value) : List (Value × Value) → List (Value × Value)
  | [] => [(key, value)]
  | (k, v) :: rest =>
    if sameKey k key then (k, value) :: rest else (k, v) :: insert key value rest

/-- Entries with distinct keys; of several values of a key the last one stays. -/
def ofEntries (entries : List (Value × Value)) : List (Value × Value) :=
  entries.foldl (fun table (key, value) => insert key value table) []

/-- The value of a text key. -/
def find? (key : String) : List (Value × Value) → Option Value
  | [] => none
  | (k, v) :: rest => if sameKey k (text key) then some v else find? key rest

/-- Whether the value is nothing: null, false, zero or empty. -/
def isNothing : Value → Bool
  | null => true
  | flag b => !b
  | whole i => i == 0
  | number x => x == 0.0
  | text s => s.isEmpty
  | list items => items.isEmpty
  | table entries => entries.isEmpty

/-- The value as a whole number: the part before the point of a number, or the number that a text
spells out. -/
def toInteger : Value → Except IntegerError Int
  | flag b => .ok (if b then 1 else 0)
  | whole i => .ok i
  | number x =>
    if x.isNaN then .error .notANumber
    else if x.isInf then .error .infinite
    else .ok (Decimal.truncate x)
  | text s =>
    match Decimal.readInteger? s.toList with
    | some i => .ok i
    | none => .error (.unreadable s)
  | _ => .error .unsuited

mutual

/-- The value as it stands inside lists and tables, texts in quotes. -/
def inspect : Value → String
  | null => "None"
  | flag b => if b then "True" else "False"
  | whole i => Decimal.intText i
  | number x => Decimal.shortest x
  | text s => quoted s
  | list items => "[" ++ ", ".intercalate (inspectItems items) ++ "]"
  | table entries => "\x7b" ++ ", ".intercalate (inspectEntries entries) ++ "\x7d"

def inspectItems : List Value → List String
  | [] => []
  | v :: rest => inspect v :: inspectItems rest

def inspectEntries : List (Value × Value) → List String
  | [] => []
  | (k, v) :: rest => (inspect k ++ ": " ++ inspect v) :: inspectEntries rest

end

/-- The value as text. -/
def display : Value → String
  | text s => s
  | v => v.inspect

end Value

end FormulaSheet
