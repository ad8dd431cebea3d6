import FormulaSheet.Sheet.Basic
/-!
Sheets from documents. A table gives the numbers of rows and columns and a table of cells by label.
A cell is a formula as text, a literal value, a table with one of the two, or nothing. Literals
become formulas of a single token, so that other cells can refer to them. Formulas are read but not
evaluated.
-/

namespace FormulaSheet

/-- Why a table describes no sheet. -/
inductive SpecError
  | dimension (error : IntegerError)
  | noCells (rows columns : Int)
  /-- The cells are neither a table nor nothing. -/
  | cellsNotATable
  | truthValue (b : Bool)
  | formula (error : FormulaError)
deriving DecidableEq, Repr

def SpecError.message : SpecError → String
  | dimension e => e.message
  | noCells rows columns =>
    "Sheet must have at least one cell, got " ++ Decimal.intText rows ++ "x" ++
      Decimal.intText columns
  | cellsNotATable => ""
  | truthValue b => "Boolean cell values are not supported: " ++ (Value.flag b).inspect
  | formula e => e.message

namespace Spec

def defaultRows : Int := Sheet.standard.rows

def defaultColumns : Int := Sheet.standard.columns

/-- The token of a literal value. -/
def literal (v : Value) : Except SpecError Token :=
  match v with
  | .flag b => .error (.truthValue b)
  | .number x => .ok (Decimal.shortest x)
  | .whole i => .ok (Decimal.intText i)
  | v => .ok (String.ofList (Text.trim v.display.toList))

def formulaTokens (text : String) : Except SpecError (List Token) :=
  (tokenize text).mapError fun failure => .formula (.unreadable failure)

/-- An entry of a table that is there and not null. -/
def given? (name : String) (entries : List (Value × Value)) : Option Value :=
  match Value.find? name entries with
  | some .null => none
  | found => found

/-- The tokens of a cell; none for a cell that is left out. -/
def cellTokens? (v : Value) : Except SpecError (Option (List Token)) :=
  match v with
  | .null => .ok none
  | .text s => (formulaTokens s).map some
  | .table entries =>
    match given? "formula" entries, given? "value" entries with
    | some formula, _ => (formulaTokens formula.display).map some
    | none, some v => (literal v).map fun t => some [t]
    | none, none => .ok none
  | v => (literal v).map fun t => some [t]

/-- Fills the cells of a sheet in the order of the entries. -/
def fill (s : Sheet) : List (Value × Value) → Except SpecError Sheet
  | [] => .ok s
  | (label, v) :: rest => do
    match ← cellTokens? v with
    | none => fill s rest
    | some tokens =>
      let (slot, s) ← (s.locate label.display).mapError fun e => .formula (.reference e)
      fill (s.modify slot (·.setFormula tokens)) rest

/-- A number of rows or columns; one that is missing has a default. -/
def dimension (name : String) (default : Int) (entries : List (Value × Value)) :
    Except SpecError Int :=
  match Value.find? name entries with
  | none => .ok default
  | some v => v.toInteger.mapError .dimension

end Spec

/-- The sheet that a table describes. -/
def Sheet.ofSpec (entries : List (Value × Value)) : Except SpecError Sheet := do
  let rows ← Spec.dimension "n_rows" Spec.defaultRows entries
  let columns ← Spec.dimension "n_cols" Spec.defaultColumns entries
  match Sheet.empty? rows columns with
  | none => .error (.noCells rows columns)
  | some s =>
    match Value.find? "cells" entries with
    | none => .ok s
    | some (.table cells) => Spec.fill s cells
    | some cells => if cells.isNothing then .ok s else .error .cellsNotATable

end FormulaSheet
