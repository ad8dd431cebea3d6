import FormulaSheet.Data.Json.Reader
import FormulaSheet.Files
import FormulaSheet.Journal.Event
import FormulaSheet.Text.Blank
import FormulaSheet.Text.Upper
import FormulaSheet.Text.Utf8
/-!
The event log of a project: a file with one record per line, appended to and read from its end.
Reading takes a window of the last bytes, drops the line that the window may have cut, skips lines
that are no JSON, and gives the newest records first. Lines are whatever stands between line
boundaries, so a record behind an unfinished line is lost with it, and a line that is JSON but no
record is given back like any other. Records have characters in place of code points, replacement
characters for surrogates that stand alone; no line of an event has any.
-/

namespace FormulaSheet

/-- Where and how the events of a project are logged. -/
structure EventLog where
  project : Path
  fsync : Bool := false
  /-- How many bytes of the file's end are read. -/
  window : Int := 2097152

inductive WriteError
  | notFinite
  | file (error : FileError)
deriving DecidableEq, Repr

def WriteError.message : WriteError → String
  | notFinite => "Out of range float values are not JSON compliant"
  | file e => e.message

/-- What a reader asks for. Empty filters ask for nothing. -/
structure EventQuery where
  level : String := ""
  kind : String := ""
  label : String := ""
  limit : Int := 200

/-- A filter met a record that has no such field to compare. -/
structure FilterError where
  record : Value

inductive ReadError
  | filter (error : FilterError)
  | file (error : FileError)
  /-- The window would begin so far behind the end of the file that no offset can say where. -/
  | offset

def ReadError.message : ReadError → String
  | filter _ => ""
  | file e => e.message
  | offset => "cannot fit 'int' into an offset-sized integer"

namespace EventLog

def directory (log : EventLog) : Path := log.project.child "logs"

def path (log : EventLog) : Path := log.directory.child "events.ndjson"

/-- The line of an event; none if a number in its context is not finite. -/
def line? (e : Event) : Option String :=
  if Json.isFinite e.toValue then some (Json.canonical e.toValue ++ "\n") else none

/-- Appends an event. Nothing is written unless the whole line can be. -/
def write (log : EventLog) (e : Event) (fs : Files) : Except WriteError Files :=
  match line? e with
  | none => .error .notFinite
  | some line =>
    match (fs.makeDirectory log.directory).bind (·.append log.path (Text.encodeUtf8 line)) with
    | .ok fs => .ok fs
    | .error e => .error (.file e)

/-- The last bytes of a file. If there are more bytes than the window holds, everything up to the
first line feed in the window is dropped. -/
def tail (window : Int) (bytes : List UInt8) : List UInt8 :=
  if (bytes.length : Int) ≤ window then bytes
  else
    let seen := bytes.drop ((bytes.length : Int) - window).toNat
    if seen.contains 0x0A then (seen.dropWhile (· != 0x0A)).drop 1 else seen

/-- Whether a window begins at an offset that a file can have: one below `2 ^ 63`. A negative window
begins behind the end. -/
def canSeek (window : Int) (bytes : List UInt8) : Bool :=
  (bytes.length : Int) - window < Nat.pow 2 63

/-- The records of a text, line by line. -/
def records (cs : List Char) : List Value :=
  (Text.lines cs).filterMap fun line =>
    let line := Text.trim line
    if line.isEmpty then none else Json.read? line

/-- All records within the window, oldest first. -/
def recorded (log : EventLog) (bytes : List UInt8) : List Value :=
  records (Text.decodeUtf8 (tail log.window bytes))

/-- A field of a record; a missing one reads as null. -/
def field (name : String) : Value → Except FilterError Value
  | .table entries => .ok ((Value.find? name entries).getD .null)
  | v => .error ⟨v⟩

/-- The label in the context of a record; a record without context has none. -/
def labelOf : Value → Except FilterError Value
  | .table entries =>
    match Value.find? "context" entries with
    | none => .ok .null
    | some context => field "label" context
  | v => .error ⟨v⟩

def isText (s : String) : Value → Bool
  | .text t => s == t
  | _ => false

/-- The records whose field has the wanted text. -/
def select (get : Value → Except FilterError Value) (wanted : String) :
    List Value → Except FilterError (List Value)
  | [] => .ok []
  | v :: rest => do
    let found ← get v
    let others ← select get wanted rest
    return if isText wanted found then v :: others else others

/-- The records that pass every filter. -/
def filtered (q : EventQuery) (vs : List Value) : Except FilterError (List Value) := do
  let vs ← if q.level = "" then .ok vs else select (field "level") q.level vs
  let vs ← if q.kind = "" then .ok vs else select (field "event_type") q.kind vs
  if q.label = "" then .ok vs else select labelOf (Text.upper q.label) vs

/-- At most this many records are ever given back. -/
def mostRecords : Int := 2000

/-- The first elements of a list; a negative limit takes as many from its end away. -/
def limited {α : Type} (limit : Int) (vs : List α) : List α :=
  vs.take (if limit < 0 then (vs.length + limit).toNat else limit.toNat)

/-- The records that a query asks for, newest first. -/
def select? (q : EventQuery) (vs : List Value) : Except FilterError (List Value) :=
  (filtered q vs).map fun vs => limited (min q.limit mostRecords) vs.reverse

/-- Reads the log; a missing log is empty. -/
def read (log : EventLog) (q : EventQuery) (fs : Files) : Except ReadError (List Value) :=
  match fs.find? log.path with
  | none => .ok []
  | some _ =>
    match fs.read log.path with
    | .error e => .error (.file e)
    | .ok bytes =>
      if canSeek log.window bytes then (select? q (log.recorded bytes)).mapError .filter
      else .error .offset

end EventLog

/-- The log that notices go to, if there is one, and the files it lives in. -/
structure Journal where
  log : Option EventLog := none
  files : Files := {}
  /-- The time that events are given. -/
  time : String := ""

namespace Journal

/-- Records an event if it can be. A journal without a log, and one whose log cannot be written,
stay as they are. -/
def emit (j : Journal) (e : Event) : Journal :=
  match j.log with
  | none => j
  | some log =>
    match log.write e j.files with
    | .ok files => { j with files }
    | .error _ => j

def note (j : Journal) (n : Notice) : Journal := j.emit (n.at j.time)

def noteAll (j : Journal) (ns : List Notice) : Journal := ns.foldl note j

end Journal

end FormulaSheet
