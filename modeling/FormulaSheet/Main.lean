import FormulaSheet.Command.Run
import Std.Time.DateTime
/-!
The command line. What the words of the command may name is read before the command runs, and what
the command added to a log is written behind it.
-/

namespace FormulaSheet

open Std.Time

def padded (width : Nat) (n : Int) : String :=
  let ds := Decimal.signedDigits n
  String.ofList (List.replicate (width - ds.length) '0' ++ ds)

/-- A time in the zone of Greenwich, down to microseconds. -/
def timeText (t : Timestamp) : String :=
  let moment := PlainDateTime.ofWallTime (WallTime.ofTimestamp t TimeZone.Offset.zero)
  let date := padded 4 moment.date.year ++ "-" ++ padded 2 moment.date.month.val ++ "-" ++
    padded 2 moment.date.day.val
  let time := padded 2 moment.time.hour.val ++ ":" ++ padded 2 moment.time.minute.val ++ ":" ++
    padded 2 moment.time.second.val
  date ++ "T" ++ time ++ "." ++ padded 6 (moment.time.nanosecond.val / 1000) ++ "Z"

/-- The paths that a word of the command line may stand for. -/
def namedPaths (word : String) : List String :=
  (word :: (Arguments.splitOption word).2.toList).filter (· ≠ "")

/-- Adds what stands at a path to the tree. -/
def observe (fs : Files) (path : String) : IO Files := do
  let here := (← IO.currentDir) / path
  unless ← here.pathExists do return fs
  let p := Path.ofText path
  if ← here.isDir then return (fs.makeDirectory p).toOption.getD fs
  let bytes ← IO.FS.readBinFile here
  return fs.write p bytes.data.toList

/-- The files and directories that a command with these words can look at. -/
def observeAll (words : List String) : IO Files := do
  let mut fs : Files := {}
  for path in words.flatMap namedPaths do
    for part in ["", "/" ++ Settings.fileName, "/logs", "/logs/events.ndjson"] do
      fs ← observe fs (path ++ part)
  return fs

/-- Appends what a run added to the log of a directory. -/
def writeBack (before after : Files) (project : Path) : IO Unit := do
  let log : EventLog := { project }
  let bytes (fs : Files) := (fs.read log.path).toOption.getD []
  let added := (bytes after).drop (bytes before).length
  unless added.isEmpty do
    IO.FS.createDirAll log.directory.text
    let handle ← IO.FS.Handle.mk log.path.text .append
    handle.write (ByteArray.mk added.toArray)

end FormulaSheet

open FormulaSheet in
def main (words : List String) : IO UInt32 := do
  let before ← observeAll words
  let (report, after) := runCommand words before (timeText (← Std.Time.Timestamp.now))
  for project in ((words.flatMap namedPaths).map Path.ofText).eraseDups do
    writeBack before after project
  IO.print report.output
  IO.eprint report.errors
  if report.failure.isSome then IO.eprintln "gridcalc: the command could not be completed"
  return report.exitCode.toUInt32
