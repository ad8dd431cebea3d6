import FormulaSheet.Proofs.Data.Json.Fragments
import FormulaSheet.Proofs.Journal.Queries
import Mathlib.Data.List.DropRight
/-!
Events behind an unfinished line. A log appends the line of an event to whatever its file ends with.
If blanks at most stand behind the last line boundary the event is read first, before everything
that was read without it. Otherwise the event is part of the unfinished line, which is no JSON then,
so neither the event is read nor what the unfinished line was by itself. In what was there before,
units of surrogate pairs that stand alone are read as replacement characters, before and after.
-/

namespace FormulaSheet.EventLog

/-! Texts by their last line boundary. -/

/-- A text up to its last line boundary. -/
def finished (cs : List Char) : List Char := cs.rdropWhile fun c => !Text.isLineEnd c

/-- What stands behind the last line boundary. -/
def unfinished (cs : List Char) : List Char := cs.rtakeWhile fun c => !Text.isLineEnd c

/-- Something that is not blank stands behind the last line boundary. -/
def Torn (cs : List Char) : Prop := (unfinished cs).dropWhile Text.isBlank ≠ []

instance (cs : List Char) : Decidable (Torn cs) :=
  inferInstanceAs (Decidable ((unfinished cs).dropWhile Text.isBlank ≠ []))

theorem finished_append_unfinished (cs : List Char) : finished cs ++ unfinished cs = cs := by
  rw [finished, unfinished, List.rdropWhile, List.rtakeWhile, ← List.reverse_append,
    List.takeWhile_append_dropWhile, List.reverse_reverse]

theorem isLineEnd_of_unfinished {cs : List Char} :
    ∀ c ∈ unfinished cs, Text.isLineEnd c = false := by
  intro c hc
  have inside := Text.mem_takeWhile c (List.mem_reverse.mp hc)
  simpa using inside

theorem finished_ended (cs : List Char) :
    ∀ c ∈ (finished cs).getLast?, Text.isLineEnd c = true := by
  intro c hc
  rw [finished, List.rdropWhile, List.getLast?_reverse] at hc
  simpa using Text.head?_dropWhile c hc

theorem records_behind {front rest : List Char}
    (ended : ∀ c ∈ front.getLast?, Text.isLineEnd c = true) (apart : rest.head? ≠ some '\n') :
    records (front ++ rest) = records front ++ records rest := by
  simp only [records, Text.lines_append ended apart, List.filterMap_append]

theorem head?_unfinished (cs : List Char) : (unfinished cs).head? ≠ some '\n' := by
  intro feed
  have inside := isLineEnd_of_unfinished _ (List.mem_of_head? feed)
  exact absurd inside (by decide)

/-- The unfinished line is read by itself. -/
theorem records_split (cs : List Char) :
    records cs = records (finished cs) ++ records (unfinished cs) := by
  have split := records_behind (finished_ended cs) (head?_unfinished cs)
  rwa [finished_append_unfinished] at split

theorem records_of_blank {cs : List Char} (single : ∀ c ∈ cs, Text.isLineEnd c = false)
    (blank : cs.dropWhile Text.isBlank = []) : records cs = [] := by
  apply List.filterMap_eq_nil_iff.mpr
  intro line hl
  have trimmed : Text.trim cs = [] := by
    rw [Text.trim, blank]
    rfl
  rw [Text.lines_of_unended single line hl, trimmed]
  rfl

/-! The line of an event behind a text. -/

theorem isTable_record {e : Event} (finite : e.isFinite = true) :
    ∃ x, Json.chars (record e) = '{' :: '"' :: x ∧ Json.IsTable x := by
  obtain ⟨x, text, first⟩ : ∃ x, Json.chars (record e) = '{' :: '"' :: x ∧
      ∃ c tail, x = c :: tail ∧ Json.isSpace c = false ∧ c ∉ [',', ':', ']', '}'] := by
    rw [record_eq]
    exact ⟨_, rfl, 'c', _, rfl, by decide, by decide⟩
  refine ⟨x, text, ?_, first⟩
  intro n v rest read
  rw [← text] at read
  exact Json.rest_of_chars (isFinite_record finite) read

theorem skipSpace_of_visible {cs : List Char} (some : cs ≠ [])
    (visible : ∀ c ∈ cs.head?, Text.isBlank c = false) : Json.skipSpace cs ≠ [] := by
  cases cs with
  | nil => exact absurd rfl some
  | cons c tail =>
    have apart : ∀ d, Text.isBlank d = true → c ≠ d := by
      rintro d blank rfl
      rw [visible c rfl] at blank
      cases blank
    have space : Json.isSpace c = false := by
      simp [Json.isSpace, apart ' ' (by decide), apart '\t' (by decide), apart '\n' (by decide),
        apart '\r' (by decide)]
    simp [Json.skipSpace, space]

/-- Behind blanks an event is read, and behind anything else nothing is. -/
theorem read?_behind {e : Event} (finite : e.isFinite = true) (cs : List Char) :
    Json.read? (Text.trim (cs ++ Json.chars (record e))) =
      if cs.dropWhile Text.isBlank = [] then some (reading e) else none := by
  rw [trim_behind]
  by_cases blank : cs.dropWhile Text.isBlank = []
  · rw [if_pos blank, blank, List.nil_append]
    exact readBack?_of_finite finite
  · obtain ⟨x, text, table⟩ := isTable_record finite
    rw [if_neg blank, text]
    exact Json.read?_fragment table (skipSpace_of_visible blank Text.head?_dropWhile)

/-- The line of an event is read together with what it was put behind. -/
theorem records_joined {e : Event} (finite : e.isFinite = true) {cs : List Char}
    (single : ∀ c ∈ cs, Text.isLineEnd c = false) :
    records (cs ++ Json.chars (record e) ++ ['\n']) =
      if cs.dropWhile Text.isBlank = [] then [reading e] else [] := by
  have joined : ∀ c ∈ cs ++ Json.chars (record e), Text.isLineEnd c = false := by
    intro c hc
    rcases List.mem_append.mp hc with hc | hc
    · exact single c hc
    · exact isLineEnd_of_isPlainChar (Json.isPlainChar_chars (record e) c hc)
  have some : (Text.trim (cs ++ Json.chars (record e))).isEmpty = false := by
    simp [trim_behind, (trim_record e).2]
  rw [records, Text.lines_of_plain joined]
  simp only [List.filterMap_cons, some, Bool.false_eq_true, if_false, read?_behind finite]
  by_cases blank : cs.dropWhile Text.isBlank = []
  · simp [blank]
  · simp [blank]

theorem records_appended {e : Event} {line : String} (written : line? e = some line)
    (bytes : List UInt8) :
    records (Text.decodeUtf8 (bytes ++ Text.encodeUtf8 line)) =
      records (finished (Text.decodeUtf8 bytes)) ++
        if Torn (Text.decodeUtf8 bytes) then [] else [reading e] := by
  obtain ⟨finite, rfl⟩ := eq_of_line? written
  have ascii := ascii_of_isLine (Json.isPlainChar_chars (record e))
  generalize hcs : Text.decodeUtf8 bytes = cs
  have text : Text.decodeUtf8
      (bytes ++ Text.encodeUtf8 (String.ofList (Json.chars (record e) ++ ['\n']))) =
        finished cs ++ (unfinished cs ++ Json.chars (record e) ++ ['\n']) := by
    rw [Text.decodeUtf8_ascii_behind bytes ascii, hcs]
    simp only [← List.append_assoc, finished_append_unfinished]
  have apart : (unfinished cs ++ Json.chars (record e) ++ ['\n']).head? ≠ some '\n' := by
    obtain ⟨x, brace, _⟩ := isTable_record finite
    have first := head?_unfinished cs
    rw [brace]
    cases behind : unfinished cs with
    | nil => simp
    | cons c tail => simpa [behind] using first
  rw [text, records_behind (finished_ended cs) apart,
    records_joined finite isLineEnd_of_unfinished]
  by_cases torn : Torn cs
  · simp only [if_pos torn, if_neg (show ¬ (unfinished cs).dropWhile Text.isBlank = [] from torn)]
  · simp only [if_neg torn, if_pos (not_not.mp torn)]

/-! Writing behind a text. -/

section

variable {log : EventLog} {fs fs' : Files} {e : Event}

/-- A log whose file can be read works. -/
theorem works_of_read {bytes : List UInt8} (file : fs.read log.path = .ok bytes) :
    log.Works fs ∧ log.contents fs = bytes := by
  obtain ⟨parts, target⟩ : ∃ parts, fs.target log.path = .found parts (.file bytes) := by
    unfold Files.read at file
    split at file
    · rename_i target
      cases file
      exact ⟨_, target⟩
    all_goals cases file
  have contents := contents_of_target target
  obtain ⟨q, way⟩ := exists_directory (.inl ⟨_, target⟩)
  refine ⟨⟨fs, parts, makeDirectory_of_found way, .inl ?_⟩, contents⟩
  rw [contents, target]

theorem Works.written (works : log.Works fs) (write : log.write e fs = .ok fs') :
    ∃ line, line? e = some line ∧
      log.contents fs' = log.contents fs ++ Text.encodeUtf8 line ∧ log.Works fs' := by
  cases there : line? e with
  | none =>
    simp only [EventLog.write, there] at write
    cases write
  | some line =>
    obtain ⟨made, same, contents, still, _⟩ := works.write there
    cases write.symm.trans same
    exact ⟨line, rfl, contents, still⟩

/-- What the file of the log decodes to. -/
def written (log : EventLog) (fs : Files) : List Char := Text.decodeUtf8 (log.contents fs)

/-- An unfiltered read of the whole log gives the newest records. -/
theorem Works.read_newest (works : log.Works fs)
    (fits : ((log.contents fs).length : Int) ≤ log.window) {q : EventQuery} (all : Unfiltered q)
    (some : 1 ≤ q.limit) :
    log.read q fs = .ok ((records (log.written fs)).reverse.take (min q.limit 2000).toNat) := by
  have limit : 0 ≤ min q.limit mostRecords := by
    unfold mostRecords
    omega
  rw [works.read fits all, limited_of_nonneg limit]
  rfl

theorem records_written_behind (works : log.Works fs) (write : log.write e fs = .ok fs') :
    records (log.written fs') =
      records (finished (log.written fs)) ++ if Torn (log.written fs) then [] else [reading e] := by
  obtain ⟨line, there, contents, _⟩ := works.written write
  rw [EventLog.written, contents]
  exact records_appended there (log.contents fs)

/-- Blanks behind the last line boundary are no line that is read. -/
theorem records_of_untorn {cs : List Char} (untorn : ¬ Torn cs) :
    records cs = records (finished cs) := by
  rw [records_split, records_of_blank isLineEnd_of_unfinished (not_not.mp untorn), List.append_nil]

/-- An event that a log accepts is read first if at most blanks stand behind the last line boundary,
and what was read before comes behind it. Otherwise the event is not read, and what stands behind
the last line boundary is not read either. -/
theorem read_behind_text (works : log.Works fs) (write : log.write e fs = .ok fs')
    (fits : ((log.contents fs').length : Int) ≤ log.window) {q : EventQuery} (all : Unfiltered q)
    (some : 1 ≤ q.limit) :
    (¬ Torn (log.written fs) → ∃ before, log.read q fs = .ok before ∧
        log.read q fs' = .ok (reading e :: before.take ((min q.limit 2000).toNat - 1))) ∧
      (Torn (log.written fs) → log.read q fs' =
        .ok ((records (finished (log.written fs))).reverse.take (min q.limit 2000).toNat)) ∧
      (e.Plain → (reading e).Alike e.toValue) := by
  obtain ⟨line, there, contents, still⟩ := works.written write
  have fitsBefore : ((log.contents fs).length : Int) ≤ log.window := by
    rw [contents, List.length_append] at fits
    omega
  have read := still.read_newest fits all some
  refine ⟨?_, ?_, ?_⟩
  · intro untorn
    refine ⟨_, works.read_newest fitsBefore all some, ?_⟩
    obtain ⟨n, most⟩ : ∃ n, (min q.limit 2000).toNat = n + 1 :=
      ⟨(min q.limit 2000).toNat - 1, by omega⟩
    rw [records_written_behind works write, if_neg untorn, ← records_of_untorn untorn,
      List.reverse_append] at read
    rw [read, most]
    simp [List.take_take]
  · intro torn
    rw [read, records_written_behind works write, if_pos torn, List.append_nil]
  · intro plain
    rw [reading_of_plain plain (eq_of_line? there).1]
    exact Json.alike_sorted (Event.keyed_toValue plain.keyed)

end

theorem works_filesOf (bytes : List UInt8) :
    sampleLog.Works (filesOf bytes) ∧ sampleLog.contents (filesOf bytes) = bytes :=
  works_of_read (read_filesOf bytes)

theorem write_filesOf {bytes : List UInt8} (small : bytes.length < 3000) :
    ∃ fs', sampleLog.write (startedEvent 3) (filesOf bytes) = .ok fs' ∧
      ((sampleLog.contents fs').length : Int) ≤ sampleLog.window := by
  obtain ⟨works, contents⟩ := works_filesOf bytes
  obtain ⟨fs', write, appended, _⟩ := works.write startedLine_written
  refine ⟨fs', write, ?_⟩
  have window : sampleLog.window = 4096 := rfl
  rw [appended, contents, List.length_append, length_startedLine, window]
  omega

/-- A line with a number, and blanks behind it. -/
def blanksBehind : List UInt8 := [0x35, 0x0A, 0x20, 0x09]

theorem read_behind_blanks :
    sampleLog.Works (filesOf blanksBehind) ∧ Unfiltered {} ∧
      ¬ Torn (sampleLog.written (filesOf blanksBehind)) ∧
      ∃ fs', sampleLog.write (startedEvent 3) (filesOf blanksBehind) = .ok fs' ∧
        ((sampleLog.contents fs').length : Int) ≤ sampleLog.window ∧
        ∃ before, sampleLog.read {} fs' = .ok (reading (startedEvent 3) :: before) := by
  obtain ⟨works, contents⟩ := works_filesOf blanksBehind
  have all : Unfiltered {} := ⟨rfl, rfl, rfl⟩
  have untorn : ¬ Torn (sampleLog.written (filesOf blanksBehind)) := by
    rw [EventLog.written, contents]
    decide +kernel
  obtain ⟨fs', write, fits⟩ := write_filesOf (show blanksBehind.length < 3000 by decide)
  obtain ⟨before, _, read⟩ := (read_behind_text works write fits all (by decide)).1 untorn
  exact ⟨works, all, untorn, fs', write, fits, _, read⟩

/-- The beginning of a table. -/
def tableBegun : List UInt8 := [0x7B, 0x22, 0x61]

/-- Behind the beginning of a table an event is accepted, and nothing is read. -/
theorem event_lost_in_table :
    Unfiltered {} ∧ ∃ fs', sampleLog.write (startedEvent 3) (filesOf tableBegun) = .ok fs' ∧
      ((sampleLog.contents fs').length : Int) ≤ sampleLog.window ∧
      sampleLog.read {} fs' = .ok [] := by
  obtain ⟨works, contents⟩ := works_filesOf tableBegun
  have all : Unfiltered {} := ⟨rfl, rfl, rfl⟩
  have torn : Torn (sampleLog.written (filesOf tableBegun)) := by
    rw [EventLog.written, contents]
    decide +kernel
  have none : finished (sampleLog.written (filesOf tableBegun)) = [] := by
    rw [EventLog.written, contents]
    decide +kernel
  obtain ⟨fs', write, fits⟩ := write_filesOf (show tableBegun.length < 3000 by decide)
  obtain ⟨_, _, _, still⟩ := works.written write
  refine ⟨all, fs', write, fits, ?_⟩
  rw [still.read_newest fits all (by decide), records_written_behind works write, if_pos torn, none]
  rfl

end FormulaSheet.EventLog
