import FormulaSheet.Data.Json.Raw
import FormulaSheet.Journal.Log
/-!
Events as they may be handed over to a log: their texts are code points of any kind, and their whole
numbers have any number of digits. Whole numbers that are too long are refused, as are numbers that
are not finite. Records are read by their code points too.
-/

namespace FormulaSheet

structure RawEvent where
  version : Int := 1
  time : RawText := []
  level : Level
  kind : EventKind
  message : RawText := []
  context : List (RawText × RawValue) := []
  errorCode : Option RawText := none

namespace RawEvent

def ofEvent (e : Event) : RawEvent where
  version := e.version
  time := .ofString e.time
  level := e.level
  kind := e.kind
  message := .ofString e.message
  context := RawValue.ofValueEntries e.context
  errorCode := e.errorCode.map .ofString

def optionalText (s : Option RawText) : RawValue := (s.map RawValue.text).getD .null

def fields (r : RawEvent) : List (RawText × RawValue) :=
  [(.ofString "schema_version", .whole r.version),
   (.ofString "ts", .text r.time),
   (.ofString "level", .text (.ofString r.level.name)),
   (.ofString "event_type", .text (.ofString r.kind.name)),
   (.ofString "context", .table r.context),
   (.ofString "message", .text r.message),
   (.ofString "error_code", optionalText r.errorCode)]

/-- The record of an event. -/
def toRaw (r : RawEvent) : RawValue := .table r.fields

/-- The line of an event; none if a number in it is not finite or too long. -/
def line? (r : RawEvent) : Option String :=
  if r.toRaw.isFinite && r.toRaw.isShort then
    some (String.ofList (r.toRaw.ordered.chars ++ ['\n']))
  else none

end RawEvent

namespace EventLog

/-- Appends an event as it is handed over; none if it is refused or cannot be written. -/
def writeRaw (log : EventLog) (r : RawEvent) (fs : Files) : Option Files :=
  r.line?.bind fun line =>
    ((fs.makeDirectory log.directory).bind (·.append log.path (Text.encodeUtf8 line))).toOption

/-- The records of a text, line by line. -/
def rawRecords (cs : List Char) : List RawValue :=
  (Text.lines cs).filterMap fun line =>
    let line := Text.trim line
    if line.isEmpty then none else Json.readRaw? line

/-- The newest records, newest first. -/
def readRaw (log : EventLog) (limit : Int) (fs : Files) : Except ReadError (List RawValue) :=
  match fs.find? log.path with
  | none => .ok []
  | some _ =>
    match fs.read log.path with
    | .error e => .error (.file e)
    | .ok bytes =>
      if canSeek log.window bytes then
        .ok (limited (min limit mostRecords)
          (rawRecords (Text.decodeUtf8 (tail log.window bytes))).reverse)
      else .error .offset

end EventLog

end FormulaSheet
