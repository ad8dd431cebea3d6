import FormulaSheet.Formula.Lexer
import FormulaSheet.Text.Quoted
/-!
What can be wrong with a formula. A `Fault` belongs to a result: it is stored on a cell and passed
on to the cells that refer to it. A `FormulaError` refuses an operation: the text cannot be read, or
the target is no cell of the sheet.
-/

namespace FormulaSheet

open Text

inductive Fault
  | emptyFormula
  | invalidFormula
  | invalidNumber
  | divideByZero
  | missingParentheses
  | invalidCell
  /-- A fault that did not arise here but was stored on a cell under a name of its own. -/
  | other (name : String)
deriving DecidableEq, Repr

namespace Fault

def name : Fault → String
  | emptyFormula => "EmptyFormula"
  | invalidFormula => "InvalidFormula"
  | invalidNumber => "InvalidNumber"
  | divideByZero => "DivideByZero"
  | missingParentheses => "MissingParentheses"
  | invalidCell => "InvalidCell"
  | other name => name

/-- The faults that evaluation itself can find, in the order of their names. -/
def kinds : List Fault :=
  [divideByZero, emptyFormula, invalidCell, invalidFormula, invalidNumber, missingParentheses]

/-- The fault of a name; the empty name stands for none. -/
def ofName? (name : String) : Option Fault :=
  if name = "" then none
  else some ((kinds.find? fun f => f.name = name).getD (other name))

end Fault

/-- The name of a fault, empty without one. -/
def faultText (fault : Option Fault) : String := (fault.map Fault.name).getD ""

/-- A number and what was wrong with it. With a fault the number is for display only. -/
structure Outcome where
  result : Float := 0.0
  fault : Option Fault := none

def Outcome.isOk (o : Outcome) : Bool := o.fault.isNone

/-- Why a text stands for no cell of a sheet. -/
inductive ReferenceError
  | notALabel (label : String)
  | outside (label : String) (rows columns : Nat)
deriving DecidableEq, Repr

namespace ReferenceError

def label : ReferenceError → String
  | notALabel label => label
  | outside label _ _ => label

/-- The message about a label; without a reason of its own it calls the label invalid. -/
def messageFor (label reason : String) : String :=
  if reason = "" then "Invalid cell label: " ++ quoted label else reason

def message : ReferenceError → String
  | notALabel label => messageFor label ""
  | outside label rows columns =>
    messageFor label
      ("Cell " ++ quoted label ++ " is outside the " ++ Decimal.natText rows ++ "x" ++
        Decimal.natText columns ++ " sheet")

end ReferenceError

/-- Why an operation on formulas is refused. -/
inductive FormulaError
  | unreadable (failure : LexFailure)
  | reference (error : ReferenceError)
deriving DecidableEq, Repr

/-- The reason for a character that begins no lexeme. A reason is one line, so it ends before a
character that would end the line. -/
def LexFailure.reason (f : LexFailure) : String :=
  let c := f.character
  if isLineEnd c then "No terminal matches '"
  else
    "No terminal matches '" ++ String.ofList [c] ++ "' in the current parser context, at line " ++
      Decimal.natText f.place.line ++ " col " ++ Decimal.natText f.place.column

namespace FormulaError

/-- The message about unreadable formula text. -/
def unreadableMessage (reason : String) (position : Option Int) : String :=
  let suffix :=
    match position with
    | some p => " (at position " ++ Decimal.intText p ++ ")"
    | none => ""
  "Formula parse error: " ++ reason ++ suffix

def message : FormulaError → String
  | unreadable f => unreadableMessage f.reason (some f.place.column)
  | reference e => e.message

end FormulaError

end FormulaSheet
