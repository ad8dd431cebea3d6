import FormulaSheet.Data.Json.Canonical
import FormulaSheet.Formula.Fault
/-!
Events of the journal. A `Notice` says what happened; an `Event` is a notice with the time and the
version of the record format, as it is written to the log.
-/

namespace FormulaSheet

inductive Level
  | info | warning | error
deriving DecidableEq, Repr

def Level.name : Level → String
  | info => "info"
  | warning => "warning"
  | error => "error"

def Level.ofName? (name : String) : Option Level :=
  [Level.info, .warning, .error].find? (·.name = name)

inductive EventKind
  | cellEvaluated
  | cellError
  | formulaRejected
  | sheetLoadFailed
  | recalcStarted
  | recalcCompleted
deriving DecidableEq, Repr

def EventKind.name : EventKind → String
  | cellEvaluated => "cell_evaluated"
  | cellError => "cell_error"
  | formulaRejected => "formula_rejected"
  | sheetLoadFailed => "sheet_load_failed"
  | recalcStarted => "recalc_started"
  | recalcCompleted => "recalc_completed"

def EventKind.ofName? (name : String) : Option EventKind :=
  [EventKind.cellEvaluated, .cellError, .formulaRejected, .sheetLoadFailed, .recalcStarted,
    .recalcCompleted].find? (·.name = name)

structure Notice where
  level : Level
  kind : EventKind
  message : String := ""
  /-- Entries with text keys. -/
  context : List (Value × Value) := []
  errorCode : Option String := none

structure Event extends Notice where
  time : String
  version : Int := 1

/-- The event of a notice at a time. -/
def Notice.at (n : Notice) (time : String) : Event := { n with time }

def optionalText (s : Option String) : Value := (s.map Value.text).getD .null

namespace Event

/-- The record of an event. -/
def toValue (e : Event) : Value :=
  .table
    [(.text "schema_version", .whole e.version),
     (.text "ts", .text e.time),
     (.text "level", .text e.level.name),
     (.text "event_type", .text e.kind.name),
     (.text "context", .table e.context),
     (.text "message", .text e.message),
     (.text "error_code", optionalText e.errorCode)]

end Event

/-- A number in a record; numbers that are not finite stand there by name. -/
def recordedNumber (x : Float) : Value :=
  if x.isNaN || x.isInf then .text (String.ofList (Json.numberChars x)) else .number x

namespace Notice

def formulaValue (tokens : List Token) : Value := .list (tokens.map .text)

/-- A notice about one cell. Only what is given stands in its context, and of faults only those that
have a name. -/
def ofCell (level : Level) (kind : EventKind) (message label : String)
    (formula : Option (List Token)) (result : Option Float) (fault : String)
    (errorCode : Option String) : Notice where
  level
  kind
  message
  context :=
    [(.text "label", .text label)] ++
    (formula.map fun ts => (.text "formula", formulaValue ts)).toList ++
    (result.map fun x => (.text "result", recordedNumber x)).toList ++
    (if fault = "" then [] else [(.text "error", .text fault)])
  errorCode

/-- The notice about an evaluated cell. -/
def ofOutcome (label : String) (formula : List Token) (o : Outcome) : Notice :=
  match o.fault with
  | none =>
    ofCell .info .cellEvaluated (label ++ " = " ++ Decimal.shortest o.result) label formula o.result
      "" none
  | some fault =>
    ofCell .warning .cellError (label ++ ": " ++ fault.name) label formula o.result fault.name
      (some "formula_eval_error")

def rejected (label text : String) (e : FormulaError) : Notice where
  level := .warning
  kind := .formulaRejected
  message := e.message
  context := [(.text "label", .text label), (.text "text", .text text)]
  errorCode := some "formula_parse_error"

def started (cells : Nat) : Notice where
  level := .info
  kind := .recalcStarted
  message := "Recalculating " ++ Decimal.natText cells ++ " cells"
  context := [(.text "cells", .whole cells)]

def completed (cells faults : Nat) : Notice where
  level := .info
  kind := .recalcCompleted
  message :=
    "Recalculated " ++ Decimal.natText cells ++ " cells (" ++ Decimal.natText faults ++
      " with errors)"
  context := [(.text "cells", .whole cells), (.text "errors", .whole faults)]

def loadFailed (path message : String) : Notice where
  level := .error
  kind := .sheetLoadFailed
  message
  context := [(.text "path", .text path)]
  errorCode := some "sheet_load_error"

end Notice

end FormulaSheet
