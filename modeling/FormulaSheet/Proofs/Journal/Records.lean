import FormulaSheet.Proofs.Data.Json.Characters
import FormulaSheet.Proofs.Data.Json.Order
import FormulaSheet.Proofs.Journal.Storage
import FormulaSheet.Proofs.Text.Lines
/-!
Events, their lines and their records. The line of an event is ASCII without line boundaries and
reads as the record of the event, and a log that ended with a line feed has the new records behind
the old ones. An event with a number that is not finite is refused, and nothing is written.
-/

namespace FormulaSheet

open Value

namespace Event

def floats (e : Event) : List Float := Value.floats (.table e.context)

/-- No number in the context is infinite or undefined. -/
def isFinite (e : Event) : Bool := e.floats.all fun x => !x.isNaN && !x.isInf

/-- The tables in the context have distinct texts as keys, and finite numbers are what their texts
read as. -/
structure Plain (e : Event) : Prop where
  keyed : Keyed (.table e.context)
  reads : ∀ x ∈ e.floats, x.isNaN = false → x.isInf = false → Json.Reads x

theorem floats_toValue (e : Event) : Value.floats e.toValue = e.floats := by
  cases hc : e.errorCode <;>
    simp [toValue, optionalText, hc, Event.floats, Value.floats, entryFloats]

theorem isFinite_toValue (e : Event) : Json.isFinite e.toValue = e.isFinite := by
  rw [Json.isFinite_eq, floats_toValue]
  rfl

theorem Plain.textKeys {e : Event} (h : e.Plain) : TextKeys e.context := by
  have keyed := h.keyed
  rw [Keyed] at keyed
  exact keyed.1

theorem keyed_toValue {e : Event} (h : Keyed (.table e.context)) : Keyed e.toValue := by
  simp only [Keyed] at h
  refine ⟨⟨?_, ?_⟩, ?_⟩
  · simp
  · simp
  · cases e.errorCode <;> simp [KeyedEntries, optionalText, h, Keyed]

theorem readable_toValue {e : Event} (h : e.Plain) (finite : e.isFinite = true) :
    Json.Readable e.toValue := by
  refine ⟨keyed_toValue h.keyed, ?_⟩
  intro x hx
  rw [floats_toValue] at hx
  have ordinary := List.all_eq_true.mp finite x hx
  simp only [Bool.and_eq_true, Bool.not_eq_true'] at ordinary
  exact ⟨ordinary.1, ordinary.2, h.reads x hx ordinary.1 ordinary.2⟩

end Event

namespace EventLog

/-! Lines. -/

/-- The record of an event in the order in which its line has it. -/
def record (e : Event) : Value := Json.sorted e.toValue

theorem sorted_optionalText (s : Option String) :
    Json.sorted (optionalText s) = optionalText s := by
  cases s <;> rfl

theorem record_eq (e : Event) : record e = .table
    [(.text "context", Json.sorted (.table e.context)),
     (.text "error_code", optionalText e.errorCode),
     (.text "event_type", .text e.kind.name),
     (.text "level", .text e.level.name),
     (.text "message", .text e.message),
     (.text "schema_version", .whole e.version),
     (.text "ts", .text e.time)] := by
  have order := Json.byKey_texts
    [("schema_version", .whole e.version), ("ts", .text e.time), ("level", .text e.level.name),
     ("event_type", .text e.kind.name), ("context", Json.sorted (.table e.context)),
     ("message", .text e.message), ("error_code", optionalText e.errorCode)]
  simpa [record, Event.toValue, Json.sorted, Json.sortedEntries, sorted_optionalText,
    List.mergeSort] using order

/-- What the text of an event's record reads as. -/
def readBack? (e : Event) : Option Value := Json.read? (Json.chars (record e))

/-- Visible ASCII and spaces, and a line feed at the end. -/
def IsLine (line : String) : Prop :=
  ∃ cs, line = String.ofList (cs ++ ['\n']) ∧ ∀ c ∈ cs, 0x20 ≤ c.toNat ∧ c.toNat < 0x7F

theorem line?_of_finite {e : Event} (finite : e.isFinite = true) :
    line? e = some (String.ofList (Json.chars (record e) ++ ['\n'])) := by
  rw [line?, Event.isFinite_toValue, if_pos finite, Json.canonical, Json.text, String.ofList_append]
  rfl

theorem line?_of_notFinite {e : Event} (h : e.isFinite = false) : line? e = none := by
  rw [line?, Event.isFinite_toValue, h]
  rfl

theorem eq_of_line? {e : Event} {line : String} (h : line? e = some line) :
    e.isFinite = true ∧ line = String.ofList (Json.chars (record e) ++ ['\n']) := by
  cases finite : e.isFinite with
  | false =>
    rw [line?_of_notFinite finite] at h
    cases h
  | true =>
    rw [line?_of_finite finite] at h
    exact ⟨rfl, (Option.some.inj h).symm⟩

theorem isLine_of_line? {e : Event} {line : String} (h : line? e = some line) : IsLine line :=
  ⟨_, (eq_of_line? h).2, Json.isPlainChar_chars _⟩

theorem isFinite_record {e : Event} (finite : e.isFinite = true) :
    Json.isFinite (record e) = true := by
  rw [← Event.isFinite_toValue, Json.isFinite_eq, List.all_eq_true] at finite
  rw [Json.isFinite_eq, List.all_eq_true]
  exact fun x hx => finite x (Json.mem_floats_sorted hx)

/-- What the line of an event reads as. -/
def reading (e : Event) : Value := Json.reread (record e)

theorem readBack?_of_finite {e : Event} (finite : e.isFinite = true) :
    readBack? e = some (reading e) :=
  Json.read?_chars (isFinite_record finite)

theorem reading_of_plain {e : Event} (plain : e.Plain) (finite : e.isFinite = true) :
    reading e = record e := by
  have readable := Event.readable_toValue plain finite
  exact Json.reread_of_readable ⟨Json.keyed_sorted readable.keyed, fun x hx =>
    readable.numbers x (Json.mem_floats_sorted hx)⟩

theorem read?_record {e : Event} (h : e.Plain) (finite : e.isFinite = true) :
    Json.read? (Json.chars (record e)) = some (record e) := by
  have read := readBack?_of_finite finite
  rwa [reading_of_plain h finite] at read

/-- Of a text that ends with braces only blanks in front are trimmed away. -/
theorem trim_braces (cs inner : List Char) :
    Text.trim (cs ++ '{' :: (inner ++ ['}'])) =
      cs.dropWhile Text.isBlank ++ '{' :: (inner ++ ['}']) := by
  have opening : Text.isBlank '{' = false := by decide
  have closing : Text.isBlank '}' = false := by decide
  rw [Text.trim, Text.dropWhile_stop opening]
  simp [Text.trimRight, closing]

theorem trim_behind (e : Event) (cs : List Char) :
    Text.trim (cs ++ Json.chars (record e)) =
      cs.dropWhile Text.isBlank ++ Json.chars (record e) := by
  obtain ⟨inner, braces⟩ : ∃ inner, Json.chars (record e) = '{' :: (inner ++ ['}']) := by
    rw [record, Event.toValue, Json.sorted, ← Json.chars_ofValue]
    exact Json.exists_tableChars _
  rw [braces, trim_braces]

theorem trim_record (e : Event) :
    Text.trim (Json.chars (record e)) = Json.chars (record e) ∧ Json.chars (record e) ≠ [] := by
  refine ⟨trim_behind e [], ?_⟩
  rw [record_eq]
  simp [Json.chars]

theorem isLineEnd_of_isPlainChar {c : Char} (h : Json.IsPlainChar c) :
    Text.isLineEnd c = false := by
  have apart : ∀ n ∈ Text.lineEnds, n < 0x20 ∨ 0x7F ≤ n := by decide
  simp only [Text.isLineEnd, List.contains_eq_mem, decide_eq_false_iff_not]
  intro ends
  have := apart _ ends
  unfold Json.IsPlainChar at h
  omega

theorem records_written {e : Event} {line : String} (written : line? e = some line) :
    records line.toList = (readBack? e).toList := by
  obtain ⟨_, rfl⟩ := eq_of_line? written
  obtain ⟨trimmed, nonempty⟩ := trim_record e
  have single := Text.lines_of_plain fun c hc =>
    isLineEnd_of_isPlainChar (Json.isPlainChar_chars (record e) c hc)
  rw [String.toList_ofList, records, single]
  simp only [List.filterMap_cons, List.filterMap_nil, trimmed, List.isEmpty_iff, nonempty, if_false]
  rw [← readBack?]
  cases readBack? e <;> rfl

/-! Bytes. -/

theorem ascii_of_isLine {cs : List Char} (h : ∀ c ∈ cs, 0x20 ≤ c.toNat ∧ c.toNat < 0x7F) :
    ∀ c ∈ cs ++ ['\n'], c.toNat < 0x80 := by
  intro c hc
  rcases List.mem_append.mp hc with hc | hc
  · exact Nat.lt_trans (h c hc).2 (by decide)
  · rw [List.mem_singleton.mp hc]
    decide

theorem decodeUtf8_line {line : String} (h : IsLine line) (rest : List UInt8) :
    Text.decodeUtf8 (Text.encodeUtf8 line ++ rest) = line.toList ++ Text.decodeUtf8 rest := by
  obtain ⟨cs, rfl, plain⟩ := h
  rw [Text.decodeUtf8_ascii (ascii_of_isLine plain), String.toList_ofList]

/-- A line has one line feed, which is its last byte. -/
theorem exists_body {line : String} (h : IsLine line) :
    ∃ body, Text.encodeUtf8 line = body ++ [0x0A] ∧ 0x0A ∉ body := by
  obtain ⟨cs, rfl, plain⟩ := h
  rw [Text.encodeUtf8_ascii (ascii_of_isLine plain), List.map_append]
  refine ⟨_, rfl, ?_⟩
  rw [List.mem_map]
  rintro ⟨c, hc, feed⟩
  have code := congrArg UInt8.toNat feed
  have := plain c hc
  simp at code
  omega

/-- No line is left unfinished. -/
def Whole (bytes : List UInt8) : Prop := ∀ b ∈ bytes.getLast?, b = 0x0A

theorem whole_line {line : String} (h : IsLine line) : Whole (Text.encodeUtf8 line) := by
  obtain ⟨body, bytes, _⟩ := exists_body h
  intro b hb
  rw [bytes, List.getLast?_concat] at hb
  cases hb
  rfl

/-! Records. -/

/-- Behind a finished line new lines begin. -/
theorem lines_append {bytes : List UInt8} (whole : Whole bytes) (more : List UInt8) :
    Text.lines (Text.decodeUtf8 (bytes ++ more)) =
      Text.lines (Text.decodeUtf8 bytes) ++ Text.lines (Text.decodeUtf8 more) := by
  cases hl : bytes.getLast? with
  | none =>
    rw [List.getLast?_eq_none_iff.mp hl, List.nil_append, Text.decodeUtf8_nil]
    rfl
  | some b =>
    obtain ⟨front, rfl⟩ := List.getLast?_eq_some_iff.mp hl
    cases whole b hl
    have ascii : (0x0A : UInt8).toNat < 0x80 := by decide
    -- a line feed begins a character of its own, whatever stands in front of it
    have decoded : ∀ rest, Text.decodeUtf8 (front ++ 0x0A :: rest) =
        Text.decodeUtf8 front ++ '\n' :: Text.decodeUtf8 rest := by
      intro rest
      rw [Text.decodeUtf8_append front ascii, Text.decodeUtf8, if_pos ascii]
      rfl
    rw [List.append_assoc, List.singleton_append, decoded, decoded, Text.decodeUtf8_nil,
      Text.lines_feed]

theorem records_append {bytes : List UInt8} (whole : Whole bytes) (more : List UInt8) :
    records (Text.decodeUtf8 (bytes ++ more)) =
      records (Text.decodeUtf8 bytes) ++ records (Text.decodeUtf8 more) := by
  rw [records, records, records, lines_append whole, List.filterMap_append]

/-- A line that was written is read by itself, whatever stands behind it. -/
theorem records_line {e : Event} {line : String} (written : line? e = some line)
    (rest : List UInt8) :
    records (Text.decodeUtf8 (Text.encodeUtf8 line ++ rest)) =
      (readBack? e).toList ++ records (Text.decodeUtf8 rest) := by
  have isLine := isLine_of_line? written
  have alone := decodeUtf8_line isLine []
  rw [List.append_nil, Text.decodeUtf8_nil, List.append_nil] at alone
  rw [records_append (whole_line isLine), alone, records_written written]

theorem records_all {events : List Event} {lines : List String}
    (written : events.map line? = lines.map some) :
    records (Text.decodeUtf8 (lines.flatMap Text.encodeUtf8)) = events.filterMap readBack? := by
  induction events generalizing lines with
  | nil =>
    cases lines with
    | nil =>
      rw [List.flatMap_nil, Text.decodeUtf8_nil]
      rfl
    | cons line rest => cases written
  | cons e rest ih =>
    cases lines with
    | nil => cases written
    | cons line lines =>
      obtain ⟨first, others⟩ := List.cons.inj written
      rw [List.flatMap_cons, records_line first, ih others]
      cases here : readBack? e with
      | none => rw [List.filterMap_cons_none here, Option.toList_none, List.nil_append]
      | some v => rw [List.filterMap_cons_some here, Option.toList_some, List.singleton_append]

theorem accepted_of_written {events : List Event} {lines : List String}
    (written : events.map line? = lines.map some) : ∀ e ∈ events, e.isFinite = true := by
  intro e he
  have mem : line? e ∈ lines.map some := written ▸ List.mem_map_of_mem he
  obtain ⟨line, _, written⟩ := List.mem_map.mp mem
  exact (eq_of_line? written.symm).1

theorem records_readings {events : List Event} {lines : List String}
    (written : events.map line? = lines.map some) :
    records (Text.decodeUtf8 (lines.flatMap Text.encodeUtf8)) = events.map reading := by
  have read : ∀ e ∈ events, readBack? e = some (reading e) :=
    fun e he => readBack?_of_finite (accepted_of_written written e he)
  rw [records_all written, List.filterMap_congr read, List.filterMap_eq_map']

/-! Writing and reading. -/

/-- The files after events were written in turn; a write that is refused leaves them as they are. -/
def writeAll (log : EventLog) (fs : Files) (events : List Event) : Files :=
  events.foldl (fun fs e => (log.write e fs).toOption.getD fs) fs

theorem write_of_notFinite (log : EventLog) {e : Event} (h : e.isFinite = false) (fs : Files) :
    log.write e fs = .error .notFinite := by
  simp [EventLog.write, line?_of_notFinite h]

theorem Works.writeAll {log : EventLog} {fs : Files} (works : log.Works fs) (events : List Event) :
    ∃ lines : List String, (events.filter Event.isFinite).map line? = lines.map some ∧
      log.Works (log.writeAll fs events) ∧
      log.contents (log.writeAll fs events) =
        log.contents fs ++ lines.flatMap Text.encodeUtf8 := by
  induction events generalizing fs with
  | nil => exact ⟨[], rfl, works, by simp [EventLog.writeAll]⟩
  | cons e rest ih =>
    cases finite : e.isFinite with
    | false =>
      obtain ⟨lines, written, still, contents⟩ := ih works
      have refused : log.writeAll fs (e :: rest) = log.writeAll fs rest := by
        simp [EventLog.writeAll, write_of_notFinite log finite, Except.toOption]
      rw [refused, List.filter_cons_of_neg (by simp [finite])]
      exact ⟨lines, written, still, contents⟩
    | true =>
      obtain ⟨fs', write, contents, still, _⟩ := works.write (line?_of_finite finite)
      obtain ⟨lines, written, works', behind⟩ := ih still
      have done : log.writeAll fs (e :: rest) = log.writeAll fs' rest := by
        simp [EventLog.writeAll, write, Except.toOption]
      rw [done, List.filter_cons_of_pos finite]
      refine ⟨String.ofList (Json.chars (record e) ++ ['\n']) :: lines, ?_, works', ?_⟩
      · rw [List.map_cons, List.map_cons, written, line?_of_finite finite]
      · rw [behind, contents, List.flatMap_cons, List.append_assoc]

structure Unfiltered (q : EventQuery) : Prop where
  level : q.level = ""
  kind : q.kind = ""
  label : q.label = ""

theorem Works.not_directory {log : EventLog} {fs : Files} (works : log.Works fs)
    {parts : List String} : fs.target log.path ≠ .found parts .directory := by
  intro found
  obtain ⟨q, way⟩ := exists_directory (.inl ⟨_, found⟩)
  obtain ⟨made, there, directory, place⟩ := works
  rw [makeDirectory_of_found way] at directory
  cases directory
  rw [found] at place
  rcases place with file | ⟨_, missing⟩
  · cases file
  · cases missing

theorem select?_nil (q : EventQuery) : select? q [] = .ok [] := by
  have none : filtered q [] = .ok [] := by
    unfold filtered
    split <;> split <;> split <;> rfl
  simp [select?, none, Except.map, limited]

theorem recorded_nil (log : EventLog) : log.recorded [] = [] := by
  have empty : tail log.window [] = [] := by
    unfold tail
    split <;> simp
  rw [recorded, empty, Text.decodeUtf8_nil]
  rfl

/-- A log that works has no file, or one with its contents. -/
theorem Works.file {log : EventLog} {fs : Files} (works : log.Works fs) :
    fs.find? log.path = none ∧ log.contents fs = [] ∨
      ∃ node, fs.find? log.path = some node ∧ fs.read log.path = .ok (log.contents fs) := by
  cases target : fs.target log.path with
  | found parts node =>
    cases node with
    | directory => exact absurd target works.not_directory
    | file bytes =>
      rw [contents_of_target target]
      exact .inr ⟨.file bytes, by simp [Files.find?, target], by simp [Files.read, target]⟩
  | missing parts => exact .inl ⟨by simp [Files.find?, target], by simp [contents, target]⟩
  | noDirectory => exact .inl ⟨by simp [Files.find?, target], by simp [contents, target]⟩
  | throughFile => exact .inl ⟨by simp [Files.find?, target], by simp [contents, target]⟩

/-- A log without a file is read like an empty one. -/
theorem Works.read_window {log : EventLog} {fs : Files} (works : log.Works fs)
    (seeks : canSeek log.window (log.contents fs) = true) (q : EventQuery) :
    log.read q fs = (select? q (log.recorded (log.contents fs))).mapError .filter := by
  rcases works.file with ⟨missing, empty⟩ | ⟨node, found, read⟩
  · rw [EventLog.read, missing, empty, recorded_nil, select?_nil]
    rfl
  · simp only [EventLog.read, found, read, seeks, if_true]

theorem select?_of_unfiltered {q : EventQuery} (all : Unfiltered q) (vs : List Value) :
    select? q vs = .ok (limited (min q.limit mostRecords) vs.reverse) := by
  simp only [select?, filtered, all.level, all.kind, all.label]
  rfl

theorem canSeek_of_fits {window : Int} {bytes : List UInt8} (fits : (bytes.length : Int) ≤ window) :
    canSeek window bytes = true := by
  unfold canSeek
  have : 0 < Nat.pow 2 63 := Nat.pow_pos (by decide)
  exact decide_eq_true (by omega)

theorem recorded_of_fits {log : EventLog} {bytes : List UInt8}
    (fits : (bytes.length : Int) ≤ log.window) :
    log.recorded bytes = records (Text.decodeUtf8 bytes) := by
  rw [recorded, tail, if_pos fits]

theorem Works.read {log : EventLog} {fs : Files} (works : log.Works fs)
    (fits : ((log.contents fs).length : Int) ≤ log.window) {q : EventQuery} (all : Unfiltered q) :
    log.read q fs = .ok (limited (min q.limit mostRecords)
      (records (Text.decodeUtf8 (log.contents fs))).reverse) := by
  rw [works.read_window (canSeek_of_fits fits), recorded_of_fits fits, select?_of_unfiltered all]
  rfl

theorem limited_of_nonneg {α : Type} {limit : Int} (h : 0 ≤ limit) (vs : List α) :
    limited limit vs = vs.take limit.toNat := by
  rw [limited, if_neg (by omega)]

theorem isLine_of_lines {events : List Event} {lines : List String}
    (written : events.map line? = lines.map some) : ∀ line ∈ lines, IsLine line := by
  intro line hl
  have mem : some line ∈ events.map line? := written ▸ List.mem_map_of_mem hl
  obtain ⟨e, _, he⟩ := List.mem_map.mp mem
  exact isLine_of_line? he

end EventLog

end FormulaSheet
