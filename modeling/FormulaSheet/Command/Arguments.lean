import FormulaSheet.Decimal.Integer
import FormulaSheet.Files
import FormulaSheet.Text.Similar
/-!
The arguments of the command line. Options begin with two hyphens, take their value from behind an
equals sign or from the next argument, and may stand before or behind the other arguments; two
hyphens alone end them. Of an option given twice the last value counts. Values are checked in the
order in which their options were first given, then the other argument.
-/

namespace FormulaSheet

/-- Why a value cannot be used. -/
inductive ValueError
  | pathMissing (kind path : String)
  | isAFile (path : String)
  | noChoice (value : String) (choices : List String)
  | noInteger (value : String)
deriving DecidableEq, Repr

def ValueError.message : ValueError → String
  | pathMissing kind path => kind ++ " " ++ Text.quoted path ++ " does not exist."
  | isAFile path => "Directory " ++ Text.quoted path ++ " is a file."
  | noChoice value choices =>
    Text.quoted value ++ " is not one of " ++ ", ".intercalate (choices.map Text.quoted) ++ "."
  | noInteger value => Text.quoted value ++ " is not a valid integer."

/-- Why the arguments are no command. -/
inductive UsageError
  | missingArgument (name : String)
  | extraArguments (arguments : List String)
  | noSuchOption (name : String) (similar : List String)
  | noSuchCommand (name : String) (similar : List String)
  | missingCommand
  | invalidValue (parameter : String) (error : ValueError)
  | needsValue (option : String)
  | takesNoValue (option : String)
deriving DecidableEq, Repr

/-- The names that may have been meant. -/
def suggestion : List String → String
  | [] => ""
  | [name] => " Did you mean " ++ Text.quoted name ++ "?"
  | names => " (Did you mean one of: " ++ ", ".intercalate (names.map Text.quoted) ++ "?)"

def UsageError.message : UsageError → String
  | missingArgument name => "Missing argument '" ++ name ++ "'."
  | extraArguments [argument] => "Got unexpected extra argument (" ++ argument ++ ")"
  | extraArguments arguments =>
    "Got unexpected extra arguments (" ++ " ".intercalate arguments ++ ")"
  | noSuchOption name similar =>
    "No such option " ++ Text.quoted name ++ "." ++ suggestion similar
  | noSuchCommand name similar =>
    "No such command " ++ Text.quoted name ++ "." ++ suggestion similar
  | missingCommand => "Missing command."
  | invalidValue parameter e => "Invalid value for '" ++ parameter ++ "': " ++ e.message
  | needsValue option => "Option " ++ Text.quoted option ++ " requires an argument."
  | takesNoValue option => "Option " ++ Text.quoted option ++ " does not take a value."

/-- Whether the usage of the command is shown with the error. -/
def UsageError.showsUsage : UsageError → Bool
  | needsValue _ => false
  | takesNoValue _ => false
  | _ => true

/-- An option and whether it takes a value. -/
structure OptionSpec where
  name : String
  takesValue : Bool

/-- Options with their values in the order given, and the arguments beside them. -/
structure Arguments where
  options : List (String × String) := []
  others : List String := []

namespace Arguments

/-- An option's name and the value behind its equals sign, if there is one. -/
def splitOption (argument : String) : String × Option String :=
  let cs := argument.toList
  match cs.dropWhile (· != '=') with
  | [] => (argument, none)
  | _ :: value => (String.ofList (cs.takeWhile (· != '=')), some (String.ofList value))

def isOption (argument : String) : Bool :=
  argument.toList.head? == some '-' && 1 < argument.length

/-- The error of an unknown option: long options are named by all of their name, and the known
names like it are suggested; others are named by their first letter. -/
def unknownOption (specs : List OptionSpec) (argument name : String) : UsageError :=
  match argument.toList with
  | '-' :: '-' :: _ => .noSuchOption name (Text.closeNames name (specs.map (·.name)))
  | '-' :: c :: _ => .noSuchOption (String.ofList ['-', c]) []
  | _ => .noSuchOption name []

/-- Sorts arguments into options and others. Where `mixed` does not hold, the first other argument
ends the options. -/
def parse (specs : List OptionSpec) (mixed : Bool) : List String → Except UsageError Arguments
  | [] => .ok {}
  | "--" :: rest => .ok { others := rest }
  | argument :: rest =>
    if isOption argument then
      let (name, value) := splitOption argument
      match specs.find? (·.name = name) with
      | none => .error (unknownOption specs argument name)
      | some spec =>
        if spec.takesValue then
          match value, rest with
          | some value, rest => (parse specs mixed rest).map (add name value)
          | none, value :: rest => (parse specs mixed rest).map (add name value)
          | none, [] => .error (.needsValue name)
        else if value.isSome then .error (.takesNoValue name)
        else (parse specs mixed rest).map (add name "")
    else if mixed then
      (parse specs mixed rest).map fun a => { a with others := argument :: a.others }
    else .ok { others := argument :: rest }
where
  add (name value : String) (a : Arguments) : Arguments :=
    { a with options := (name, value) :: a.options }

def isGiven (a : Arguments) (name : String) : Bool := (a.options.lookup name).isSome

/-- The last value of an option. -/
def get? (a : Arguments) (name : String) : Option String := a.options.reverse.lookup name

/-- The options that were given, each once, in the order of first mention. -/
def given (a : Arguments) : List String := (a.options.map (·.1)).eraseDups

end Arguments

/-- Whether a path as written leads to something. A path that ends in a slash leads to no file. -/
def nodeAt? (fs : Files) (path : String) : Option FileNode :=
  let last := (path.splitOn "/").getLast?
  match path, fs.find? (Path.ofText path) with
  | "", _ => none
  | _, some (.file bytes) => if last = some "" ∨ last = some "." then none else some (.file bytes)
  | _, node => node

def checkPath (fs : Files) (parameter path : String) : Except UsageError Unit :=
  if (nodeAt? fs path).isSome then .ok ()
  else .error (.invalidValue parameter (.pathMissing "Path" path))

def checkDirectory (fs : Files) (parameter path : String) : Except UsageError Unit :=
  match nodeAt? fs path with
  | some .directory => .ok ()
  | some (.file _) => .error (.invalidValue parameter (.isAFile path))
  | none => .error (.invalidValue parameter (.pathMissing "Directory" path))

def checkChoice (choices : List String) (parameter value : String) : Except UsageError Unit :=
  if choices.contains value then .ok ()
  else .error (.invalidValue parameter (.noChoice value choices))

def readLimit (parameter value : String) : Except UsageError Int :=
  match Decimal.readInteger? value.toList with
  | some n => .ok n
  | none => .error (.invalidValue parameter (.noInteger value))

end FormulaSheet
