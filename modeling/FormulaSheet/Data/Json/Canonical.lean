import FormulaSheet.Data.Json.Writer
/-!
JSON text with the entries of every table in the order of their keys. Texts come in the order of
their code points and numbers by size, whole numbers and floats alike and without rounding; texts
and numbers have no common order. NaN is neither less nor greater than any number, so where it is a
key the entries come in the order that insertion by comparison gives.
-/

namespace FormulaSheet.Json

/-- Where the number of a key stands: below, among or above the finite numbers, and among them how
many of the smallest positive float it amounts to. Truth values count as one and zero. -/
def rank : Value → Int × Int
  | .number x =>
    if x.isInf then (if x < 0.0 then -1 else 1, 0)
    else
      let a := Decimal.magnitude x
      let size : Int := (a.m * Nat.pow 2 (a.q + 1074).toNat : Nat)
      (0, if Decimal.isNegative x then -size else size)
  | v => (0, (v.wholeKey?.getD 0) * Nat.pow 2 1074)

def isUndefined : Value → Bool
  | .number x => x.isNaN
  | _ => false

/-- Whether a key comes before another. -/
def keyLt (a b : Value) : Bool :=
  match a, b with
  | .text s, .text t => s < t
  | a, b =>
    !isUndefined a && !isUndefined b &&
      ((rank a).1 < (rank b).1 || ((rank a).1 == (rank b).1 && (rank a).2 < (rank b).2))

/-! ### Insertion by comparison -/

section

variable {α : Type} (lt : α → α → Bool)

/-- Where an element is put among others: behind all that it is not less than, by halving. -/
def place (x : α) (made : List α) : Nat :=
  if h : made.length = 0 then 0
  else
    have half : made.length / 2 < made.length := by omega
    if lt x made[made.length / 2] then place x (made.take (made.length / 2))
    else made.length / 2 + 1 + place x (made.drop (made.length / 2 + 1))
termination_by made.length
decreasing_by all_goals simp only [List.length_take, List.length_drop]; omega

def insertAt (made : List α) (x : α) : List α :=
  let n := place lt x made
  made.take n ++ x :: made.drop n

/-- How many elements behind the first go on as its successor does. -/
def runLength (goesOn : α → α → Bool) : α → List α → Nat
  | _, [] => 0
  | x, y :: rest => if goesOn x y then runLength goesOn y rest + 1 else 0

/-- The elements in order: those that fall or do not fall from the first on, then the others one by
one. -/
def arranged : List α → List α
  | x :: y :: rest =>
    let falling := lt y x
    let n := 1 + runLength (fun a b => lt b a == falling) x (y :: rest)
    let first := (x :: y :: rest).take n
    ((x :: y :: rest).drop n).foldl (insertAt lt) (if falling then first.reverse else first)
  | few => few

end

/-- Entries in the order of their keys. -/
def byKey (entries : List (Value × Value)) : List (Value × Value) :=
  if entries.any fun e => isUndefined e.1 then arranged (fun a b => keyLt a.1 b.1) entries
  else entries.mergeSort fun a b => !keyLt b.1 a.1

mutual

/-- The value with the entries of every table in the order of their keys. -/
def sorted : Value → Value
  | .list items => .list (sortedItems items)
  | .table entries => .table (byKey (sortedEntries entries))
  | v => v

def sortedItems : List Value → List Value
  | [] => []
  | v :: rest => sorted v :: sortedItems rest

def sortedEntries : List (Value × Value) → List (Value × Value)
  | [] => []
  | (k, v) :: rest => (k, sorted v) :: sortedEntries rest

end

/-- The value on one line, entries in the order of their keys. -/
def canonical (v : Value) : String := text (sorted v)

def isTextKey : Value → Bool
  | .text _ => true
  | _ => false

def isNumberKey : Value → Bool
  | .flag _ => true
  | .whole _ => true
  | .number _ => true
  | _ => false

mutual

/-- Whether the keys of every table have an order: at most one key, texts only, or numbers only. -/
def isSortable : Value → Bool
  | .list items => sortableItems items
  | .table entries =>
    (entries.length ≤ 1 || entries.all (fun e => isTextKey e.1) ||
      entries.all (fun e => isNumberKey e.1)) && sortableEntries entries
  | _ => true

def sortableItems : List Value → Bool
  | [] => true
  | v :: rest => isSortable v && sortableItems rest

def sortableEntries : List (Value × Value) → Bool
  | [] => true
  | (_, v) :: rest => isSortable v && sortableEntries rest

end

end FormulaSheet.Json
