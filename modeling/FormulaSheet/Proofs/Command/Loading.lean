import FormulaSheet.Command.Run
import FormulaSheet.Proofs.Data.Value
import FormulaSheet.Proofs.Journal.Storage
import FormulaSheet.Proofs.Text.Lines
import Mathlib.Data.List.Basic
/-!
Loading a sheet for a command. A failure is noted once and reported as an error, with the exception
of a few that end the command with nothing noted: text that is malformed or has numbers that do not
fit, dimensions that are nothing, infinite or no numbers at all, and cells that are no table.
-/

namespace FormulaSheet

/-- Nothing, lists, tables and what is infinite are no number of rows or columns. -/
def Value.isUncountable : Value → Bool
  | .null => true
  | .list _ => true
  | .table _ => true
  | .number x => !x.isNaN && x.isInf
  | _ => false

theorem Value.toInteger_infinite {x : Float} (defined : x.isNaN = false)
    (infinite : x.isInf = true) : (number x).toInteger = .error .infinite := by
  rw [toInteger, if_neg (by rw [defined]; decide), if_pos infinite]

theorem Value.toInteger_unreported_iff (v : Value) :
    (∃ e, v.toInteger = .error e ∧ (e = .unsuited ∨ e = .infinite)) ↔ v.isUncountable = true := by
  cases v with
  | number x =>
    rw [isUncountable, toInteger]
    cases x.isNaN with
    | true => simp
    | false => cases x.isInf <;> simp
  | text s => cases h : Decimal.readInteger? s.toList <;> simp [toInteger, isUncountable, h]
  | _ => simp [toInteger, isUncountable]

namespace LoadError

theorem isReported_dimension (e : IntegerError) :
    (spec (.dimension e)).isReported = false ↔ e = .unsuited ∨ e = .infinite := by
  cases e <;> simp [isReported]

end LoadError

/-! Sheets from tables. -/

namespace Spec

theorem isReported_formulaTokens {text : String} {e : SpecError}
    (h : formulaTokens text = .error e) : (LoadError.spec e).isReported = true := by
  cases read : tokenize text with
  | ok tokens =>
    rw [formulaTokens, read] at h
    cases h
  | error failure =>
    rw [formulaTokens, read] at h
    cases h
    rfl

theorem isReported_literal {v : Value} {e : SpecError} (h : literal v = .error e) :
    (LoadError.spec e).isReported = true := by
  cases v with
  | flag b =>
    cases h
    rfl
  | _ => cases h

theorem error_of_map {α β : Type} {x : Except SpecError α} {f : α → β} {e : SpecError}
    (h : x.map f = .error e) : x = .error e := by
  cases x with
  | error e' =>
    cases h
    rfl
  | ok a => cases h

theorem isReported_cellTokens? {v : Value} {e : SpecError} (h : cellTokens? v = .error e) :
    (LoadError.spec e).isReported = true := by
  cases v with
  | null => cases h
  | text s => exact isReported_formulaTokens (error_of_map h)
  | table entries =>
    cases formula : given? "formula" entries with
    | some formula' =>
      simp only [cellTokens?, formula] at h
      exact isReported_formulaTokens (error_of_map h)
    | none =>
      cases value : given? "value" entries with
      | some v =>
        simp only [cellTokens?, formula, value] at h
        exact isReported_literal (error_of_map h)
      | none =>
        simp only [cellTokens?, formula, value] at h
        cases h
  | _ =>
    simp only [cellTokens?] at h
    exact isReported_literal (error_of_map h)

/-- Filling cells fails for a truth value or a formula only. -/
theorem isReported_fill {s : Sheet} {cells : List (Value × Value)} {e : SpecError}
    (h : fill s cells = .error e) : (LoadError.spec e).isReported = true := by
  induction cells generalizing s with
  | nil => cases h
  | cons cell rest ih =>
    obtain ⟨label, v⟩ := cell
    cases tokens : cellTokens? v with
    | error e' =>
      simp only [fill, tokens, bind, Except.bind] at h
      cases h
      exact isReported_cellTokens? tokens
    | ok found =>
      cases found with
      | none =>
        simp only [fill, tokens, bind, Except.bind] at h
        exact ih h
      | some tokens' =>
        cases place : s.locate label.display with
        | error e' =>
          simp only [fill, tokens, place, bind, Except.bind, Except.mapError] at h
          cases h
          rfl
        | ok located =>
          simp only [fill, tokens, place, bind, Except.bind, Except.mapError] at h
          exact ih h

end Spec

/-- The cells that a table gives are something, but no table. -/
def CellsMisplaced (entries : List (Value × Value)) : Prop :=
  ∃ v, Value.find? "cells" entries = some v ∧ v.isTable = false ∧ v.isNothing = false

theorem Sheet.empty?_eq_none_iff {rows columns : Int} :
    Sheet.empty? rows columns = none ↔ rows < 1 ∨ columns < 1 := by
  unfold Sheet.empty?
  split
  · simp
    omega
  · simp
    omega

/-- Filling a sheet with the cells that a table gives. -/
def Spec.fillFrom (s : Sheet) (entries : List (Value × Value)) : Except SpecError Sheet :=
  match Value.find? "cells" entries with
  | none => .ok s
  | some (.table cells) => Spec.fill s cells
  | some cells => if cells.isNothing then .ok s else .error .cellsNotATable

theorem Sheet.ofSpec_eq (entries : List (Value × Value)) :
    Sheet.ofSpec entries = Spec.dimension "n_rows" Spec.defaultRows entries >>= fun rows =>
      Spec.dimension "n_cols" Spec.defaultColumns entries >>= fun columns =>
        match Sheet.empty? rows columns with
        | none => .error (.noCells rows columns)
        | some s => Spec.fillFrom s entries := rfl

theorem unreported_fillFrom_iff {s : Sheet} {entries : List (Value × Value)} :
    (∃ e, Spec.fillFrom s entries = .error e ∧ (LoadError.spec e).isReported = false) ↔
      CellsMisplaced entries := by
  unfold CellsMisplaced
  cases there : Value.find? "cells" entries with
  | none => simp [Spec.fillFrom, there]
  | some v =>
    cases v with
    | table cells =>
      simp only [Spec.fillFrom, there]
      constructor
      · rintro ⟨e, failed, ended⟩
        rw [Spec.isReported_fill failed] at ended
        cases ended
      · rintro ⟨v, same, noTable, -⟩
        cases same
        cases noTable
    | _ =>
      simp only [Spec.fillFrom, there]
      split
      · rename_i nothing
        simp [nothing]
      · rename_i something
        simp [something, Value.isTable, LoadError.isReported]

theorem unreported_ofSpec_iff {entries : List (Value × Value)} {rows columns : Value}
    (givenRows : Value.find? "n_rows" entries = some rows)
    (givenColumns : Value.find? "n_cols" entries = some columns) :
    (∃ e, Sheet.ofSpec entries = .error e ∧ (LoadError.spec e).isReported = false) ↔
      rows.isUncountable = true ∨
        (∃ n, rows.toInteger = .ok n) ∧ columns.isUncountable = true ∨
        (∃ n m, rows.toInteger = .ok n ∧ columns.toInteger = .ok m ∧ 1 ≤ n ∧ 1 ≤ m) ∧
          CellsMisplaced entries := by
  rw [← Value.toInteger_unreported_iff rows, ← Value.toInteger_unreported_iff columns,
    Sheet.ofSpec_eq]
  simp only [Spec.dimension, givenRows, givenColumns, bind]
  cases readRows : rows.toInteger with
  | error e => simp [Except.mapError, Except.bind, LoadError.isReported_dimension]
  | ok n =>
    cases readColumns : columns.toInteger with
    | error e => simp [Except.mapError, Except.bind, LoadError.isReported_dimension]
    | ok m =>
      simp only [Except.mapError, Except.bind]
      cases empty : Sheet.empty? n m with
      | none =>
        have few := Sheet.empty?_eq_none_iff.mp empty
        simp [LoadError.isReported]
        omega
      | some s =>
        have many : ¬ (n < 1 ∨ m < 1) := by
          rw [← Sheet.empty?_eq_none_iff, empty]
          simp
        rw [not_or, Int.not_lt, Int.not_lt] at many
        rw [unreported_fillFrom_iff]
        simp [many]

/-! Sheet files. -/

namespace Settings

/-- A dimension as a sheet file gives it, or else the settings, or else the default. -/
def dimension (settings : Settings) (name : String) (default : Int)
    (entries : List (Value × Value)) : Value :=
  (Value.find? name entries).getD ((Value.find? name settings).getD (.whole default))

def rows (settings : Settings) (entries : List (Value × Value)) : Value :=
  settings.dimension "n_rows" Spec.defaultRows entries

def columns (settings : Settings) (entries : List (Value × Value)) : Value :=
  settings.dimension "n_cols" Spec.defaultColumns entries

/-- The entries of a sheet file with a dimension that they do not give. -/
def complete (settings : Settings) (name : String) (default : Int)
    (entries : List (Value × Value)) : List (Value × Value) :=
  if (Value.find? name entries).isSome then entries
  else Value.insert (.text name) ((Value.find? name settings).getD (.whole default)) entries

theorem find?_complete (settings : Settings) (name k : String) (default : Int)
    (entries : List (Value × Value)) :
    Value.find? k (settings.complete name default entries) =
      if name = k then some (settings.dimension name default entries)
      else Value.find? k entries := by
  unfold complete dimension
  cases given : Value.find? name entries with
  | some v =>
    by_cases same : name = k
    · subst same
      simp [given]
    · simp [same]
  | none => simp [Value.find?_insert]

/-- The entries of a sheet file with both dimensions. -/
def completed (settings : Settings) (entries : List (Value × Value)) : List (Value × Value) :=
  settings.complete "n_cols" Spec.defaultColumns
    (settings.complete "n_rows" Spec.defaultRows entries)

theorem find?_completed (settings : Settings) (entries : List (Value × Value)) :
    Value.find? "n_rows" (settings.completed entries) = some (settings.rows entries) ∧
      Value.find? "n_cols" (settings.completed entries) = some (settings.columns entries) ∧
      Value.find? "cells" (settings.completed entries) = Value.find? "cells" entries := by
  simp [completed, find?_complete, rows, columns, dimension]

end Settings

/-- Without settings the defaults are what counts, which changes no dimension. -/
theorem loadSheet_eq (fs : Files) (p : Path) (settings : Settings) :
    ∃ given : Settings, given.rows = settings.rows ∧ given.columns = settings.columns ∧
      loadSheet fs p settings = loadTable fs p >>= fun entries =>
        (Sheet.ofSpec (given.completed entries)).mapError .spec := by
  cases settings with
  | nil => exact ⟨Settings.defaults, rfl, rfl, rfl⟩
  | cons e rest => exact ⟨e :: rest, rfl, rfl, rfl⟩

/-- Whatever text a file holds, it is one that the reader of documents covers. -/
def Covers (fs : Files) (p : Path) : Prop :=
  ∀ bytes text, fs.read p = .ok bytes → Text.readUtf8 bytes = .ok text →
    Yaml.Covered (plainLines text)

/-! Files in ASCII with plain line ends hold what they say. -/

theorem plainLines_of_plain {cs : List Char} (plain : ∀ c ∈ cs, c ≠ '\r') : plainLines cs = cs := by
  induction cs with
  | nil => rfl
  | cons c rest ih =>
    obtain ⟨here, later⟩ := List.forall_mem_cons.mp plain
    rw [plainLines, if_neg here, ih later]
    rintro rest' rfl
    exact absurd rfl here

/-- ASCII, but for the carriage return. -/
def isPlainAscii (c : Char) : Bool := c.toNat < 0x80 && c != '\r'

section Ascii

variable {fs : Files} {p : Path} {text : String} (file : fs.read p = .ok (Text.encodeUtf8 text))
  (ascii : text.toList.all isPlainAscii = true)

include ascii in
theorem readUtf8_of_ascii :
    Text.readUtf8 (Text.encodeUtf8 text) = .ok text.toList ∧
      plainLines text.toList = text.toList := by
  have chars : ∀ c ∈ text.toList, c.toNat < 0x80 ∧ c ≠ '\r' := by
    simpa [isPlainAscii] using ascii
  have decoded := Text.readUtf8_ascii fun c hc => (chars c hc).1
  rw [String.ofList_toList] at decoded
  exact ⟨decoded, plainLines_of_plain fun c hc => (chars c hc).2⟩

include file ascii

theorem loadTable_of_ascii {entries : List (Value × Value)}
    (document : Yaml.read text.toList = .ok (.table entries)) : loadTable fs p = .ok entries := by
  obtain ⟨decoded, plain⟩ := readUtf8_of_ascii ascii
  simp only [loadTable, file, decoded, plain, document, Except.mapError, bind, Except.bind]
  cases entries with
  | nil => rfl
  | cons e rest => rfl

theorem covers_of_ascii (covered : Yaml.Covered text.toList) : Covers fs p := by
  obtain ⟨decoded, plain⟩ := readUtf8_of_ascii ascii
  intro bytes cs read decoded'
  rw [file] at read
  cases read
  rw [decoded] at decoded'
  cases decoded'
  rwa [plain]

end Ascii

/-! Failures without a report. -/

/-- The text in a file, if it has one and this is no document for a reason that is not reported. -/
structure Unreadable (fs : Files) (p : Path) (bytes : List UInt8) (text : List Char)
    (e : Yaml.DocumentError) : Prop where
  file : fs.read p = .ok bytes
  decoded : Text.readUtf8 bytes = .ok text
  refused : Yaml.read (plainLines text) = .error e
  kind : e = .malformed ∨ e = .codeTooLarge ∨ e = .weightTooLarge

theorem unreported_loadTable_iff {fs : Files} {p : Path} (covered : Covers fs p) :
    (∃ e, loadTable fs p = .error e ∧ e.isReported = false) ↔
      ∃ bytes text e, Unreadable fs p bytes text e := by
  constructor
  · rintro ⟨e, failed, ended⟩
    cases file : fs.read p with
    | error e' =>
      simp only [loadTable, file, Except.mapError, bind, Except.bind] at failed
      cases failed
      cases ended
    | ok bytes =>
      cases decoded : Text.readUtf8 bytes with
      | error e' =>
        simp only [loadTable, file, decoded, Except.mapError, bind, Except.bind] at failed
        cases failed
        cases ended
      | ok text =>
        cases document : Yaml.read (plainLines text) with
        | error e' =>
          have part := (covered bytes text file decoded).parts
          simp only [loadTable, file, decoded, document, Except.mapError, bind, Except.bind]
            at failed
          cases failed
          refine ⟨bytes, text, e', file, decoded, document, ?_⟩
          cases e' with
          | unsupported => exact absurd document part
          | malformed => simp
          | codeTooLarge => simp
          | weightTooLarge => simp
          | _ => cases ended
        | ok v =>
          simp only [loadTable, file, decoded, document, Except.mapError, bind, Except.bind]
            at failed
          split at failed
          · cases failed
          · split at failed
            · cases failed
            · cases failed
              cases ended
  · rintro ⟨bytes, text, e, unreadable⟩
    refine ⟨.document e, ?_, ?_⟩
    · simp only [loadTable, unreadable.file, unreadable.decoded, unreadable.refused,
        Except.mapError, bind, Except.bind]
    · obtain rfl | rfl | rfl := unreadable.kind <;> rfl

/-- What a load fails for without a report. -/
inductive Unreported (fs : Files) (p : Path) (settings : Settings) : Prop
  /-- The text is malformed, or has an escape or a number that does not fit. -/
  | text {bytes : List UInt8} {text : List Char} {e : Yaml.DocumentError}
    (unreadable : Unreadable fs p bytes text e)
  | rows {entries : List (Value × Value)} (table : loadTable fs p = .ok entries)
    (uncountable : (settings.rows entries).isUncountable = true)
  | columns {entries : List (Value × Value)} (table : loadTable fs p = .ok entries)
    (rows : ∃ n, (settings.rows entries).toInteger = .ok n)
    (uncountable : (settings.columns entries).isUncountable = true)
  | cells {entries : List (Value × Value)} (table : loadTable fs p = .ok entries)
    (dimensions : ∃ n m, (settings.rows entries).toInteger = .ok n ∧
      (settings.columns entries).toInteger = .ok m ∧ 1 ≤ n ∧ 1 ≤ m)
    (misplaced : CellsMisplaced entries)

theorem unreported_iff {fs : Files} {p : Path} {settings : Settings} (covered : Covers fs p) :
    Unreported fs p settings ↔
      ∃ e, loadSheet fs p settings = .error e ∧ e.isReported = false := by
  obtain ⟨given, sameRows, sameColumns, load⟩ := loadSheet_eq fs p settings
  have ofTable : ∀ {entries}, loadTable fs p = .ok entries →
      ((∃ e, loadSheet fs p settings = .error e ∧ e.isReported = false) ↔
        ∃ e, Sheet.ofSpec (given.completed entries) = .error e ∧
          (LoadError.spec e).isReported = false) := by
    intro entries table
    simp only [load, table, bind, Except.bind]
    cases Sheet.ofSpec (given.completed entries) <;> simp [Except.mapError]
  have ofSpec : ∀ entries, (∃ e, Sheet.ofSpec (given.completed entries) = .error e ∧
      (LoadError.spec e).isReported = false) ↔
        (settings.rows entries).isUncountable = true ∨
        (∃ n, (settings.rows entries).toInteger = .ok n) ∧
          (settings.columns entries).isUncountable = true ∨
        (∃ n m, (settings.rows entries).toInteger = .ok n ∧
          (settings.columns entries).toInteger = .ok m ∧ 1 ≤ n ∧ 1 ≤ m) ∧
            CellsMisplaced entries := by
    intro entries
    obtain ⟨rows, columns, cells⟩ := given.find?_completed entries
    rw [unreported_ofSpec_iff rows columns, sameRows, sameColumns, CellsMisplaced, cells]
    rfl
  constructor
  · intro unreported
    cases unreported with
    | text unreadable =>
      obtain ⟨e, failed, ended⟩ :=
        (unreported_loadTable_iff covered).mpr ⟨_, _, _, unreadable⟩
      exact ⟨e, by rw [load, failed]; rfl, ended⟩
    | rows table uncountable =>
      exact (ofTable table).mpr ((ofSpec _).mpr (.inl uncountable))
    | columns table rows uncountable =>
      exact (ofTable table).mpr ((ofSpec _).mpr (.inr (.inl ⟨rows, uncountable⟩)))
    | cells table dimensions misplaced =>
      exact (ofTable table).mpr ((ofSpec _).mpr (.inr (.inr ⟨dimensions, misplaced⟩)))
  · rintro ⟨e, failed, ended⟩
    cases table : loadTable fs p with
    | error e' =>
      rw [load, table] at failed
      cases failed
      obtain ⟨_, _, _, unreadable⟩ := (unreported_loadTable_iff covered).mp ⟨_, table, ended⟩
      exact .text unreadable
    | ok entries =>
      rcases (ofSpec entries).mp ((ofTable table).mp ⟨e, failed, ended⟩) with
        rows | ⟨rows, columns⟩ | ⟨dimensions, cells⟩
      · exact .rows table rows
      · exact .columns table rows columns
      · exact .cells table dimensions cells

/-! Loading for a command. -/

theorem note_loadFailed {j : Journal} {log : EventLog} (logged : j.log = some log)
    (works : log.Works j.files) (path message : String) :
    ∃ line, EventLog.line? ((Notice.loadFailed path message).at j.time) = some line ∧
      log.contents (j.note (.loadFailed path message)).files =
        log.contents j.files ++ Text.encodeUtf8 line := by
  have finite : Json.isFinite ((Notice.loadFailed path message).at j.time).toValue = true := rfl
  obtain ⟨line, written⟩ :
      ∃ line, EventLog.line? ((Notice.loadFailed path message).at j.time) = some line :=
    ⟨_, if_pos finite⟩
  obtain ⟨fs, write, contents, _⟩ := works.write written
  refine ⟨line, written, ?_⟩
  rw [Journal.note, Journal.emit, logged]
  simp only [write, contents]

/-- How a sheet is loaded for a command. -/
structure Loads (j : Journal) (path : String) (settings : Settings) : Prop where
  loaded : ∀ s, loadSheet j.files (Path.ofText path) settings = .ok s →
    Request.loadFor j path settings = .ok s
  /-- One event is noted for a failure, in one line of the log, and the message is reported. -/
  reported : ∀ e, loadSheet j.files (Path.ofText path) settings = .error e →
    ¬ Unreported j.files (Path.ofText path) settings →
      ∃ n : Notice, n.level = .error ∧ n.kind = .sheetLoadFailed ∧ n.message = e.message ∧
        n.context = [(.text "path", .text path)] ∧ n.errorCode = some "sheet_load_error" ∧
        Request.loadFor j path settings = .error (.error e.message, j.note n) ∧
        ∀ log, j.log = some log → log.Works j.files →
          ∃ line, EventLog.line? (n.at j.time) = some line ∧
            log.contents (j.note n).files = log.contents j.files ++ Text.encodeUtf8 line
  /-- The other failures end the command, and nothing is noted. -/
  ended : Unreported j.files (Path.ofText path) settings →
    ∃ e, loadSheet j.files (Path.ofText path) settings = .error e ∧
      Request.loadFor j path settings = .error (.failed [] (.load e), j)

/-- A sheet file with text that the reader covers, and any other file, is loaded, or the failure is
noted once and reported, or it is one of the failures that end the command with nothing noted. The
last are exactly those of `Unreported`, whatever the file and the settings hold. -/
theorem loads_or_reports (j : Journal) (path : String) (settings : Settings)
    (covered : Covers j.files (Path.ofText path)) : Loads j path settings := by
  refine ⟨?_, ?_, ?_⟩
  · intro s load
    rw [Request.loadFor, load]
  · intro e load reported
    have known : e.isReported = true := by
      rw [unreported_iff covered] at reported
      rw [← Bool.not_eq_false]
      exact fun ended => reported ⟨e, load, ended⟩
    refine ⟨.loadFailed path e.message, rfl, rfl, rfl, rfl, rfl, ?_, ?_⟩
    · rw [Request.loadFor, load]
      exact if_pos known
    · intro log logged works
      exact note_loadFailed logged works path e.message
  · intro unreported
    obtain ⟨e, load, ended⟩ := (unreported_iff covered).mp unreported
    refine ⟨e, load, ?_⟩
    rw [Request.loadFor, load]
    exact if_neg (by simp [ended])

/-- A journal with a log, and a sheet file that gives infinitely many rows. -/
def infiniteRows : Journal where
  log := some EventLog.sampleLog
  files := ⟨[(["project"], .directory), (["s"], .file (Text.encodeUtf8 "n_rows: .inf\n"))]⟩

theorem infiniteRows_works : EventLog.sampleLog.Works infiniteRows.files := by
  refine ⟨infiniteRows.files.setNode ["project", "logs"] .directory,
    ["project", "logs", "events.ndjson"], ?_, .inr ⟨?_, ?_⟩⟩
  · simp [infiniteRows, EventLog.sampleLog, EventLog.directory, Path.child, Files.makeDirectory,
      Files.target, Files.follow, Files.node?, Files.makeAlong, Files.setNode, Files.setNode.go,
      Path.base, Path.isBase, Path.plain, List.lookup_cons]
  · simp [infiniteRows, EventLog.sampleLog, EventLog.contents, EventLog.path, EventLog.directory,
      Path.child, Files.target, Files.follow, Files.node?, Path.base, Path.isBase, List.lookup_cons]
  · simp [infiniteRows, EventLog.sampleLog, EventLog.path, EventLog.directory, Path.child,
      Files.target, Files.follow, Files.node?, Files.setNode, Files.setNode.go, Path.base,
      Path.isBase, List.lookup_cons]

theorem path_s : Path.ofText "s" = ⟨false, ["s"]⟩ := by
  have split : "s".splitOn "/" = ["s"] := by
    rw [String.splitOn, if_neg (by decide), String.splitOnAux, String.splitOnAux]
    decide +kernel
  simp [Path.ofText, split]

theorem infiniteRows_read :
    infiniteRows.files.read (Path.ofText "s") = .ok (Text.encodeUtf8 "n_rows: .inf\n") := by
  simp [path_s, infiniteRows, Files.read, Files.target, Files.follow, Files.node?, Path.base,
    Path.isBase, List.lookup_cons]

/-- Whether a document is a table with an infinite number of rows and nothing else. -/
def isInfiniteRows : Except Yaml.DocumentError Value → Bool
  | .ok (.table [(.text "n_rows", .number x)]) => !x.isNaN && x.isInf
  | _ => false

theorem infiniteRows_table : ∃ v : Value, v.toInteger = .error .infinite ∧
    Yaml.read "n_rows: .inf\n".toList = .ok (.table [(.text "n_rows", v)]) ∧
    loadTable infiniteRows.files (Path.ofText "s") = .ok [(.text "n_rows", v)] := by
  have read : isInfiniteRows (Yaml.read "n_rows: .inf\n".toList) = true := by decide +kernel
  unfold isInfiniteRows at read
  split at read
  · rename_i x document
    rw [Bool.and_eq_true, Bool.not_eq_true'] at read
    exact ⟨.number x, Value.toInteger_infinite read.1 read.2, document,
      loadTable_of_ascii infiniteRows_read (by decide +kernel) document⟩
  · cases read

theorem infiniteRows_covered : Covers infiniteRows.files (Path.ofText "s") := by
  obtain ⟨_, _, document, _⟩ := infiniteRows_table
  apply covers_of_ascii infiniteRows_read (by decide +kernel)
  constructor
  · rw [document]
    rintro ⟨⟩
  · decide +kernel

/-- A file that the reader covers, and a failure that ends the command. -/
theorem loads_or_reports_of_infinite_rows :
    Covers infiniteRows.files (Path.ofText "s") ∧
      Unreported infiniteRows.files (Path.ofText "s") Settings.defaults ∧
      Loads infiniteRows "s" Settings.defaults := by
  obtain ⟨v, infinite, _, table⟩ := infiniteRows_table
  have uncountable := (Value.toInteger_unreported_iff v).mp ⟨_, infinite, .inr rfl⟩
  exact ⟨infiniteRows_covered, .rows table uncountable,
    loads_or_reports infiniteRows "s" Settings.defaults infiniteRows_covered⟩

/-- Infinitely many rows end the command, and the log stays empty. -/
theorem infinite_rows_unreported :
    loadSheet infiniteRows.files (Path.ofText "s") Settings.defaults =
        .error (.spec (.dimension .infinite)) ∧
      EventLog.sampleLog.Works infiniteRows.files ∧
      Request.loadFor infiniteRows "s" Settings.defaults =
        .error (.failed [] (.load (.spec (.dimension .infinite))), infiniteRows) := by
  obtain ⟨v, infinite, _, table⟩ := infiniteRows_table
  have load : loadSheet infiniteRows.files (Path.ofText "s") Settings.defaults =
      .error (.spec (.dimension .infinite)) := by
    obtain ⟨given, _, _, load⟩ :=
      loadSheet_eq infiniteRows.files (Path.ofText "s") Settings.defaults
    have rows := (given.find?_completed [(.text "n_rows", v)]).1
    rw [load, table]
    simp only [bind, Except.bind, Sheet.ofSpec_eq, Spec.dimension, rows]
    have own : given.rows [(.text "n_rows", v)] = v := rfl
    rw [own, infinite]
    rfl
  exact ⟨load, infiniteRows_works, by rw [Request.loadFor, load]; rfl⟩

end FormulaSheet
