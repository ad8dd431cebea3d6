import FormulaSheet.Data.Yaml.Reader
import FormulaSheet.Files
import FormulaSheet.Sheet.Spec
import FormulaSheet.Text.Utf8
/-!
Documents in files: a sheet file or the settings of a project. A file has to be a text in UTF-8, and
every kind of line end counts as a line feed before the text is read.
-/

namespace FormulaSheet

/-- Why a document could not be loaded. -/
inductive LoadError
  | file (error : FileError)
  /-- The file is no text. -/
  | encoding (error : Text.Utf8Error)
  | document (error : Yaml.DocumentError)
  | notATable (path : Path)
  | spec (error : SpecError)

namespace LoadError

def message : LoadError → String
  | file e => e.message
  | encoding e => e.message
  | document e => e.message
  | notATable p => p.text ++ " must contain a mapping"
  | spec e => e.message

/-- Whether the failure is one that a command reports. Malformed text, numbers in it that do not
fit, cells that are no table, and dimensions that are no numbers or not finite end a command
instead. -/
def isReported : LoadError → Bool
  | document .malformed => false
  | document .unsupported => false
  | document .codeTooLarge => false
  | document .weightTooLarge => false
  | spec .cellsNotATable => false
  | spec (.dimension .unsuited) => false
  | spec (.dimension .infinite) => false
  | _ => true

end LoadError

/-- A text with line feeds for all line ends. -/
def plainLines : List Char → List Char
  | [] => []
  | '\r' :: '\n' :: rest => '\n' :: plainLines rest
  | c :: rest => (if c = '\r' then '\n' else c) :: plainLines rest

/-- The entries of a document's table. A document that amounts to nothing is an empty table. -/
def loadTable (fs : Files) (p : Path) : Except LoadError (List (Value × Value)) := do
  let bytes ← (fs.read p).mapError .file
  let text ← (Text.readUtf8 bytes).mapError .encoding
  let v ← (Yaml.read (plainLines text)).mapError .document
  if v.isNothing then return []
  match v with
  | .table entries => return entries
  | _ => throw (.notATable p)

end FormulaSheet
