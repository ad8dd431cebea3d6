import FormulaSheet.Command.Arguments
import FormulaSheet.Journal.Log
/-!
The three commands: evaluate a formula, recalculate a sheet file, show the log of a project. A
request is a command with its arguments, checked against the files it names, or a question about the
commands themselves.
-/

namespace FormulaSheet

/-- A command as its usage names it. -/
inductive CommandName
  | main
  | evaluate
  | sheet
  | events
deriving DecidableEq, Repr

namespace CommandName

def words : CommandName → String
  | main => "gridcalc"
  | evaluate => "gridcalc eval"
  | sheet => "gridcalc sheet"
  | events => "gridcalc events"

/-- The name of the command's one argument. -/
def parameter : CommandName → String
  | main => "COMMAND"
  | evaluate => "FORMULA"
  | sheet => "SHEET_FILE"
  | events => "DIRECTORY"

def usage : CommandName → String
  | main => "gridcalc [OPTIONS] COMMAND [ARGS]..."
  | c => c.words ++ " [OPTIONS] " ++ c.parameter

def options : CommandName → List OptionSpec
  | main => [⟨"--version", false⟩, ⟨"--help", false⟩]
  | evaluate => [⟨"--sheet", true⟩, ⟨"--json", false⟩, ⟨"--help", false⟩]
  | sheet => [⟨"--project", true⟩, ⟨"--json", false⟩, ⟨"--help", false⟩]
  | events =>
    [⟨"--level", true⟩, ⟨"--type", true⟩, ⟨"--label", true⟩, ⟨"--limit", true⟩, ⟨"--help", false⟩]

/-- The words by which commands are called. -/
def names : List (String × CommandName) :=
  [("eval", evaluate), ("sheet", sheet), ("events", events)]

end CommandName

inductive Request
  | version
  | help (command : CommandName)
  | evaluate (formula : String) (sheet : Option String) (json : Bool)
  | sheet (file : String) (project : Option String) (json : Bool)
  | events (directory : String) (query : EventQuery)

namespace Request

def levels : List String := ["info", "warning", "error"]

/-- Checks the last value of an option. -/
def checkOption (fs : Files) (name value : String) : Except UsageError Unit :=
  match name with
  | "--sheet" => checkPath fs name value
  | "--project" => checkDirectory fs name value
  | "--level" => checkChoice levels name value
  | "--limit" => (readLimit name value).map fun _ => ()
  | _ => .ok ()

/-- The argument of a command, once its options have been checked. -/
def argument (fs : Files) (c : CommandName) (a : Arguments) : Except UsageError String := do
  for name in a.given do
    checkOption fs name ((a.get? name).getD "")
  match a.others with
  | [] => throw (.missingArgument c.parameter)
  | value :: extra =>
    if c ≠ .evaluate then checkPath fs c.parameter value
    unless extra.isEmpty do throw (.extraArguments extra)
    return value

def ofArguments (fs : Files) (c : CommandName) (words : List String) :
    Except UsageError Request := do
  let a ← Arguments.parse c.options true words
  if a.isGiven "--help" then return .help c
  let value ← argument fs c a
  match c with
  | .main => throw .missingCommand
  | .evaluate => return .evaluate value (a.get? "--sheet") (a.isGiven "--json")
  | .sheet => return .sheet value (a.get? "--project") (a.isGiven "--json")
  | .events =>
    let limit ←
      match a.get? "--limit" with
      | some text => readLimit "--limit" text
      | none => pure 100
    return .events value
      { level := (a.get? "--level").getD ""
        kind := (a.get? "--type").getD ""
        label := (a.get? "--label").getD ""
        limit }

/-- What is asked about the commands themselves. -/
def question? (a : Arguments) : Option Request :=
  match a.given with
  | "--version" :: _ => some .version
  | "--help" :: _ => some (.help .main)
  | _ => none

/-- The request that the words of a command line make. An error comes with the command whose usage
was missed. What stands where a command is due and is none may still be an option. -/
def parse (fs : Files) (words : List String) : Except (CommandName × UsageError) Request := do
  let a ← mainArguments words
  if let some r := question? a then return r
  match a.others with
  | [] => throw (.main, .missingCommand)
  | word :: rest =>
    match CommandName.names.lookup word with
    | some c => (ofArguments fs c rest).mapError fun e => (c, e)
    | none =>
      let again ← mainArguments a.others
      if let some r := question? again then return r
      throw (.main, .noSuchCommand word (Text.closeNames word (CommandName.names.map (·.1))))
where
  mainArguments (words : List String) : Except (CommandName × UsageError) Arguments :=
    (Arguments.parse CommandName.main.options false words).mapError fun e => (.main, e)

end Request

end FormulaSheet
