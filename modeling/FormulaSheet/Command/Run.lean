import FormulaSheet.Command.Request
import FormulaSheet.Project.Settings
import FormulaSheet.Text.ControlSequence
import FormulaSheet.Workspace
/-!
Running a request: what is printed, the exit code, and the files afterwards. Failures that a command
knows of are printed as errors; others end it, and what was printed before stays. Nothing is printed
that could control a terminal.
-/

namespace FormulaSheet

/-- A failure that ends a command. -/
inductive Failure
  | load (error : LoadError)
  | window (error : IntegerError)
  | precision (error : IntegerError)
  | format (error : PrecisionError)
  | read (error : ReadError)
  /-- A logged line that is no record, or whose level is no text. -/
  | record

/-- A label that the sheet cannot have, met while cells are evaluated. It ends a command the way one
that is met while the sheet is loaded would. -/
def Failure.ofReference (e : ReferenceError) : Failure := .load (.spec (.formula (.reference e)))

/-- What a run leaves behind. -/
structure Report where
  exitCode : Nat := 0
  output : String := ""
  errors : String := ""
  failure : Option Failure := none

namespace Report

def printed (lines : List String) : Report :=
  { output := String.join (lines.map (· ++ "\n")) }

/-- The lines printed before a failure that ends the command. -/
def failed (lines : List String) (failure : Failure) : Report :=
  { printed lines with exitCode := 1, failure := some failure }

def error (message : String) : Report :=
  { exitCode := 1, errors := "Error: " ++ message ++ "\n" }

/-- The usage of a command and its options. -/
def help (c : CommandName) : Report :=
  printed (("Usage: " ++ c.usage) :: "" :: "Options:" :: c.options.map fun o => "  " ++ o.name)

def usage (c : CommandName) (e : UsageError) : Report :=
  let head :=
    if e.showsUsage then
      "Usage: " ++ c.usage ++ "\nTry '" ++ c.words ++ " --help' for help.\n\n"
    else ""
  { exitCode := 2, errors := head ++ "Error: " ++ e.message ++ "\n" }

/-- The report without terminal control sequences. -/
def plain (r : Report) : Report :=
  { r with output := Text.withoutControls r.output, errors := Text.withoutControls r.errors }

end Report

/-- The entries that show an outcome as data. -/
def Outcome.entries (o : Outcome) : List (Value × Value) :=
  [(.text "result", recordedNumber o.result), (.text "error", .text (faultText o.fault))]

def Outcome.toValue (o : Outcome) : Value := .table o.entries

def padRight (width : Nat) (s : String) : String :=
  s ++ String.ofList (List.replicate (width - s.length) ' ')

def padLeft (width : Nat) (s : String) : String :=
  String.ofList (List.replicate (width - s.length) ' ') ++ s

namespace Request

/-- The lines of an outcome; the fixed precision always fits. -/
def outcomeLines (o : Outcome) : List String :=
  let shown := (formatNumber o.result defaultPrecision).toOption.getD ""
  shown :: (o.fault.map fun f => "error: " ++ f.name).toList

/-- Loads a sheet for a command. A failure is reported as an error and noted, or it ends the
command. -/
def loadFor (j : Journal) (path : String) (settings : Settings) :
    Except (Report × Journal) Sheet :=
  match loadSheet j.files (Path.ofText path) settings with
  | .ok s => .ok s
  | .error e =>
    if e.isReported then .error (.error e.message, j.note (.loadFailed path e.message))
    else .error (.failed [] (.load e), j)

/-- The sheet that a formula refers to: a recalculated sheet file, or an empty sheet. -/
def sheetFor (j : Journal) (path : Option String) : Except (Report × Journal) Sheet :=
  match path with
  | none => .ok .standard
  | some path => do
    let pass := (← loadFor j path Settings.defaults).recalculate
    match pass.value with
    | .ok _ => return pass.sheet
    | .error e => .error (.failed [] (.ofReference e), j)

def runEvaluate (j : Journal) (formula : String) (path : Option String) (json : Bool) :
    Report × Journal :=
  match tokenize formula with
  | .error failure => (.error (FormulaError.unreadable failure).message, j)
  | .ok tokens =>
    match sheetFor j path with
    | .error r => r
    | .ok s =>
      let o := (s.evaluate Label.isLabel tokens).1
      let lines :=
        if json then
          [Json.text (.table ((.text "tokens", .list (tokens.map .text)) :: o.entries))]
        else outcomeLines o
      (.printed lines, j)

/-- One line per cell with a formula, up to the first number that cannot be formatted. -/
def cellLines (precision : Int) (evaluated : List String) :
    List Cell → List String × Option PrecisionError
  | [] => ([], none)
  | c :: rest =>
    if evaluated.contains c.label then
      match formatNumber c.value precision with
      | .error e => ([], some e)
      | .ok shown =>
        let mark := (c.fault.map fun f => "  [" ++ f.name ++ "]").getD ""
        let line := padRight 6 c.label ++ " " ++ padLeft 14 shown ++ "  = " ++ c.formulaText ++ mark
        let (lines, failure) := cellLines precision evaluated rest
        (line :: lines, failure)
    else cellLines precision evaluated rest

/-- The outcomes of a pass by label, with the formulas as they are shown. -/
def outcomeTable (s : Sheet) (results : List (String × Outcome)) : Value :=
  .table (results.map fun (label, o) =>
    let formula := ((s.find? label).map Cell.formulaText).getD ""
    (.text label, .table ((.text "formula", .text formula) :: o.entries)))

def showSheet (settings : Settings) (json : Bool) (s : Sheet) (results : List (String × Outcome)) :
    Report :=
  match ((Value.find? "display_precision" settings).getD (.whole defaultPrecision)).toInteger with
  | .error e => .failed [] (.precision e)
  | .ok precision =>
    if json then .printed [Json.indentedText (outcomeTable s results)]
    else if results.isEmpty then .printed ["No formulas found."]
    else
      match cellLines precision (results.map (·.1)) s.cells with
      | (lines, none) => .printed lines
      | (lines, some e) => .failed lines (.format e)

/-- The report of a pass over a loaded sheet. -/
def passReport (settings : Settings) (json : Bool)
    (pass : Calculated (Except ReferenceError (List (String × Outcome)))) : Report :=
  match pass.value with
  | .ok results => showSheet settings json pass.sheet results
  | .error e => .failed [] (.ofReference e)

def runSheet (j : Journal) (file : String) (project : Option String) (json : Bool) :
    Report × Journal :=
  let opened : Except Failure (Settings × Journal) :=
    match project with
    | none => .ok (Settings.defaults, j)
    | some directory => do
      let p := Path.ofText directory
      let settings ← (Settings.load j.files p).mapError .load
      let log ← (EventLog.open j.files p).mapError fun
        | .settings e => .load e
        | .window e => .window e
      return (settings, { j with log := some log })
  match opened with
  | .error failure => (.failed [] failure, j)
  | .ok (settings, j) =>
    match loadFor j file settings with
    | .error r => r
    | .ok s =>
      let pass := s.recalculate
      (passReport settings json pass, (Workspace.after ⟨s, j⟩ pass).journal)

/-- A field of a record as text; a missing one is empty. -/
def fieldText (name : String) (entries : List (Value × Value)) : String :=
  ((Value.find? name entries).map Value.display).getD ""

/-- The line of a record; none if it is no record or its level no text. -/
def recordLine? : Value → Option String
  | .table entries =>
    match (Value.find? "level" entries).getD (.text "") with
    | .text level =>
      let code :=
        match Value.find? "error_code" entries with
        | some v => if v.isNothing then "" else "  (" ++ v.display ++ ")"
        | none => ""
      some ("[" ++ fieldText "ts" entries ++ "] " ++ padRight 7 (Text.upper level) ++ " " ++
        fieldText "event_type" entries ++ ": " ++ fieldText "message" entries ++ code)
    | _ => none
  | _ => none

/-- The lines of records up to the first that has none, and whether there is one. -/
def recordLines : List Value → List String × Bool
  | [] => ([], false)
  | v :: rest =>
    match recordLine? v with
    | none => ([], true)
    | some line =>
      let (lines, stopped) := recordLines rest
      (line :: lines, stopped)

def runEvents (j : Journal) (directory : String) (query : EventQuery) : Report :=
  match EventLog.read { project := Path.ofText directory } query j.files with
  | .error e => .failed [] (.read e)
  | .ok [] => .printed ["No events found."]
  | .ok records =>
    match recordLines records with
    | (lines, false) => .printed lines
    | (lines, true) => .failed lines .record

/-- Runs a request on the files of a journal. -/
def run (r : Request) (j : Journal) : Report × Journal :=
  match r with
  | .version => (.printed ["gridcalc, version 0.1.0"], j)
  | .help c => (.help c, j)
  | .evaluate formula path json => runEvaluate j formula path json
  | .sheet file project json => runSheet j file project json
  | .events directory query => (runEvents j directory query, j)

end Request

/-- Runs a command line on files at a time: what it prints, and the files afterwards. -/
def runCommand (words : List String) (files : Files) (time : String) : Report × Files :=
  match Request.parse files words with
  | .error (c, e) => ((Report.usage c e).plain, files)
  | .ok request =>
    let (report, j) := request.run { files, time }
    (report.plain, j.files)

end FormulaSheet
