import FormulaSheet.Journal.Log
import FormulaSheet.Project.Document
/-!
The settings of a project: defaults, overridden by the entries of a file in its directory. Entries
that are not known are kept, and no entry is checked before it is used.
-/

namespace FormulaSheet

abbrev Settings := List (Value × Value)

namespace Settings

def fileName : String := "gridcalc.yaml"

def defaults : Settings :=
  [(.text "n_rows", .whole 100),
   (.text "n_cols", .whole 26),
   (.text "display_precision", .whole 10),
   (.text "logging_fsync", .flag false),
   (.text "logging_tail_bytes", .whole 2097152)]

/-- The settings with the given entries over them. -/
def override (settings entries : Settings) : Settings :=
  entries.foldl (fun settings (key, value) => Value.insert key value settings) settings

/-- The settings of a project; without a file the defaults. -/
def load (fs : Files) (project : Path) : Except LoadError Settings :=
  let p := project.child fileName
  match fs.find? p with
  | none => .ok defaults
  | some _ => (loadTable fs p).map defaults.override

end Settings

/-- Why a project has no log. -/
inductive LogError
  | settings (error : LoadError)
  | window (error : IntegerError)

/-- The log that a project's settings ask for. -/
def EventLog.open (fs : Files) (project : Path) : Except LogError EventLog := do
  let settings ← (Settings.load fs project).mapError .settings
  let fsync := !((Value.find? "logging_fsync" settings).getD (.flag false)).isNothing
  let log : EventLog := { project, fsync }
  match Spec.given? "logging_tail_bytes" settings with
  | none => return log
  | some v => return { log with window := ← v.toInteger.mapError .window }

/-- Loads a sheet file. Dimensions that it does not give come from the settings, or from the
defaults where the settings do not have them either. -/
def loadSheet (fs : Files) (p : Path) (settings : Settings) : Except LoadError Sheet := do
  let settings := if settings.isEmpty then Settings.defaults else settings
  let entries ← loadTable fs p
  let fallback (name : String) (default : Int) (entries : List (Value × Value)) :=
    if (Value.find? name entries).isSome then entries
    else Value.insert (.text name) ((Value.find? name settings).getD (.whole default)) entries
  let entries := fallback "n_cols" Spec.defaultColumns (fallback "n_rows" Spec.defaultRows entries)
  (Sheet.ofSpec entries).mapError .spec

end FormulaSheet
