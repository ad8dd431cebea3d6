import FormulaSheet.Journal.Raw
import FormulaSheet.Proofs.Data.Json.Ordered
import FormulaSheet.Proofs.Journal.Records
/-!
The log gives back what was handed over to it. The line of an event is ASCII without line
boundaries and reads as the record of the event, code point by code point, so lines are equal
exactly where events are equal but for the order of keys. The exception are two surrogates that
belong together: they leave the line of the character that they stand for. An event with a number
that is not finite, or too long, is refused, and nothing is written.
-/

namespace FormulaSheet

theorem Level.name_injective {l l' : Level} (h : l.name = l'.name) : l = l' := by
  cases l <;> cases l' <;> first | rfl | exact absurd h (by decide)

theorem EventKind.name_injective {k k' : EventKind} (h : k.name = k'.name) : k = k' := by
  cases k <;> cases k' <;> first | rfl | exact absurd h (by decide)

namespace RawEvent

open RawValue

/-- No number in the context is infinite or undefined. -/
def isFinite (r : RawEvent) : Bool := (RawValue.table r.context).isFinite

/-- Equal but for the order of keys in the context. -/
structure Alike (r r' : RawEvent) : Prop where
  version : r.version = r'.version
  time : r.time = r'.time
  level : r.level = r'.level
  kind : r.kind = r'.kind
  message : r.message = r'.message
  errorCode : r.errorCode = r'.errorCode
  context : (RawValue.table r.context).Alike (.table r'.context)

/-- In the record no key comes twice in a table, no text has a high surrogate in front of a low one,
whole numbers are short enough to be written, and finite numbers are what their texts read as. -/
structure Plain (r : RawEvent) : Prop where
  distinct : (RawValue.table r.context).Distinct
  unpaired : ∀ s, .text s ∈ r.toRaw.leaves → s.isUnpaired = true
  short : r.toRaw.isShort = true
  reads : ∀ x, .number x ∈ r.toRaw.leaves → x.isNaN = false → x.isInf = false → Json.Reads x

/-! Records. -/

theorem isFinite_toRaw (r : RawEvent) : r.toRaw.isFinite = r.isFinite := by
  cases hc : r.errorCode <;>
    simp [RawEvent.isFinite, RawValue.isFinite, toRaw, fields, optionalText, hc, leaves,
      entryLeaves]

theorem nodup_fields (r : RawEvent) : (r.fields.map (·.1)).Nodup := by
  have names : ["schema_version", "ts", "level", "event_type", "context", "message",
      "error_code"].Nodup := by decide
  have keys : r.fields.map (·.1) = List.map RawText.ofString
    ["schema_version", "ts", "level", "event_type", "context", "message", "error_code"] := rfl
  rw [keys]
  exact names.map fun _ _ same => RawText.ofString_inj.mp same

theorem distinct_toRaw {r : RawEvent} (h : (RawValue.table r.context).Distinct) :
    r.toRaw.Distinct := by
  rw [Distinct] at h
  rw [toRaw, Distinct]
  refine ⟨nodup_fields r, ?_⟩
  cases hc : r.errorCode <;> simp [fields, optionalText, hc, DistinctEntries, Distinct, h]

theorem ordered_optionalText (s : Option RawText) : (optionalText s).ordered = optionalText s := by
  cases s <;> rfl

theorem optionalText_inj {s t : Option RawText} : optionalText s = optionalText t ↔ s = t := by
  cases s <;> cases t <;> simp [optionalText]

theorem ordered_toRaw (r : RawEvent) : r.toRaw.ordered = .table
    [(.ofString "context", (table r.context).ordered),
     (.ofString "error_code", optionalText r.errorCode),
     (.ofString "event_type", .text (.ofString r.kind.name)),
     (.ofString "level", .text (.ofString r.level.name)),
     (.ofString "message", .text r.message),
     (.ofString "schema_version", .whole r.version),
     (.ofString "ts", .text r.time)] := by
  have order := byKey_texts
    [("schema_version", .whole r.version), ("ts", .text r.time),
     ("level", .text (.ofString r.level.name)), ("event_type", .text (.ofString r.kind.name)),
     ("context", (table r.context).ordered), ("message", .text r.message),
     ("error_code", optionalText r.errorCode)]
  simpa [toRaw, fields, ordered, orderedEntries, ordered_optionalText, List.mergeSort] using order

theorem ordered_toRaw_iff {r r' : RawEvent} (h : (RawValue.table r.context).Distinct)
    (h' : (RawValue.table r'.context).Distinct) :
    r.toRaw.ordered = r'.toRaw.ordered ↔ r.Alike r' := by
  rw [ordered_toRaw, ordered_toRaw]
  constructor
  · intro same
    simp only [table.injEq, List.cons.injEq, Prod.mk.injEq, true_and, and_true, whole.injEq,
      text.injEq, RawText.ofString_inj, optionalText_inj] at same
    obtain ⟨context, errorCode, kind, level, message, version, time⟩ := same
    exact ⟨version, time, Level.name_injective level, EventKind.name_injective kind, message,
      errorCode, (ordered_eq_iff h h').mp context⟩
  · rintro ⟨version, time, level, kind, message, errorCode, context⟩
    rw [ordered_of_alike context, version, time, level, kind, message, errorCode]

/-! Lines. -/

theorem line?_of_finite {r : RawEvent} (plain : r.Plain) (finite : r.isFinite = true) :
    r.line? = some (String.ofList (r.toRaw.ordered.chars ++ ['\n'])) := by
  rw [line?, isFinite_toRaw, finite, plain.short]
  rfl

theorem line?_of_notFinite {r : RawEvent} (h : r.isFinite = false) : r.line? = none := by
  rw [line?, isFinite_toRaw, h]
  rfl

theorem eq_of_line? {r : RawEvent} {line : String} (h : r.line? = some line) :
    r.isFinite = true ∧ line = String.ofList (r.toRaw.ordered.chars ++ ['\n']) := by
  rw [line?] at h
  split at h
  · rename_i accepted
    rw [Bool.and_eq_true, isFinite_toRaw] at accepted
    exact ⟨accepted.1, (Option.some.inj h).symm⟩
  · cases h

theorem isLine_of_line? {r : RawEvent} {line : String} (h : r.line? = some line) :
    EventLog.IsLine line :=
  ⟨_, (eq_of_line? h).2, Json.isPlainChar_raw _⟩

theorem legible_toRaw {r : RawEvent} (plain : r.Plain) (finite : r.isFinite = true) :
    r.toRaw.leaves.all Json.isLegible = true := by
  rw [← isFinite_toRaw, RawValue.isFinite, List.all_eq_true] at finite
  rw [List.all_eq_true]
  intro leaf mem
  cases leaf with
  | number x => exact finite _ mem
  | text s => exact plain.unpaired s mem
  | _ => rfl

/-- The line of an event reads as its record. -/
theorem readRaw?_toRaw {r : RawEvent} (plain : r.Plain) (finite : r.isFinite = true) :
    Json.readRaw? r.toRaw.ordered.chars = some r.toRaw.ordered := by
  apply readRaw?_ordered (distinct_toRaw plain.distinct) (legible_toRaw plain finite)
  intro x mem
  have ordinary := List.all_eq_true.mp (legible_toRaw plain finite) _ mem
  simp only [Json.isLegible, Bool.and_eq_true, Bool.not_eq_true'] at ordinary
  exact plain.reads x mem ordinary.1 ordinary.2

theorem line?_eq_iff {r r' : RawEvent} (h : r.Plain) (h' : r'.Plain) (finite : r.isFinite = true)
    (finite' : r'.isFinite = true) : r.line? = r'.line? ↔ r.Alike r' := by
  rw [← ordered_toRaw_iff h.distinct h'.distinct, line?_of_finite h finite,
    line?_of_finite h' finite']
  constructor
  · intro same
    have chars : r.toRaw.ordered.chars = r'.toRaw.ordered.chars :=
      List.append_cancel_right (String.ofList_injective (Option.some.inj same))
    have read := readRaw?_toRaw h finite
    rw [chars, readRaw?_toRaw h' finite'] at read
    exact (Option.some.inj read).symm
  · intro same
    rw [same]

/-! Events whose texts are characters. -/

theorem toRaw_ofEvent (e : Event) : (ofEvent e).toRaw = .ofValue e.toValue := by
  cases hc : e.errorCode <;>
    simp [toRaw, fields, ofEvent, optionalText, hc, Event.toValue, FormulaSheet.optionalText,
      ofValue, ofValueEntries, Json.keyText]

theorem line?_ofEvent {e : Event} (keyed : Value.Keyed (.table e.context))
    (short : (ofEvent e).toRaw.isShort = true) : (ofEvent e).line? = EventLog.line? e := by
  have keys := Event.keyed_toValue keyed
  rw [line?, short, Bool.and_true, toRaw_ofEvent, isFinite_ofValue keys, ordered_ofValue keys,
    Json.chars_ofValue, EventLog.line?, String.ofList_append]
  rfl

end RawEvent

namespace EventLog

/-! Records behind one another. -/

theorem trim_ordered (r : RawEvent) :
    Text.trim r.toRaw.ordered.chars = r.toRaw.ordered.chars ∧ r.toRaw.ordered.chars ≠ [] := by
  obtain ⟨inner, braces⟩ := Json.exists_tableChars (RawValue.byKey (RawValue.orderedEntries r.fields))
  have text : r.toRaw.ordered.chars = '{' :: (inner ++ ['}']) := by
    rw [RawEvent.toRaw, RawValue.ordered, braces]
  rw [text]
  exact ⟨trim_braces [] inner, by simp⟩

theorem rawRecords_written {r : RawEvent} (plain : r.Plain) {line : String}
    (written : r.line? = some line) : rawRecords line.toList = [r.toRaw.ordered] := by
  obtain ⟨finite, rfl⟩ := RawEvent.eq_of_line? written
  obtain ⟨trimmed, nonempty⟩ := trim_ordered r
  have single := Text.lines_of_plain fun c hc =>
    isLineEnd_of_isPlainChar (Json.isPlainChar_raw r.toRaw.ordered c hc)
  rw [String.toList_ofList, rawRecords, single]
  simp only [List.filterMap_cons, List.filterMap_nil, trimmed, List.isEmpty_iff, nonempty, if_false,
    RawEvent.readRaw?_toRaw plain finite]

theorem rawRecords_append {bytes : List UInt8} (whole : Whole bytes) (more : List UInt8) :
    rawRecords (Text.decodeUtf8 (bytes ++ more)) =
      rawRecords (Text.decodeUtf8 bytes) ++ rawRecords (Text.decodeUtf8 more) := by
  rw [rawRecords, rawRecords, rawRecords, lines_append whole, List.filterMap_append]

theorem rawRecords_all {events : List RawEvent} (plain : ∀ r ∈ events, r.Plain)
    {lines : List String} (written : events.map RawEvent.line? = lines.map some) :
    rawRecords (Text.decodeUtf8 (lines.flatMap Text.encodeUtf8)) =
      events.map fun r => r.toRaw.ordered := by
  induction events generalizing lines with
  | nil =>
    cases lines with
    | nil =>
      rw [List.flatMap_nil, Text.decodeUtf8_nil]
      rfl
    | cons line rest => cases written
  | cons r rest ih =>
    cases lines with
    | nil => cases written
    | cons line lines =>
      obtain ⟨first, others⟩ := List.cons.inj written
      obtain ⟨here, behind⟩ := List.forall_mem_cons.mp plain
      have isLine := RawEvent.isLine_of_line? first
      have alone := decodeUtf8_line isLine []
      rw [List.append_nil, Text.decodeUtf8_nil, List.append_nil] at alone
      rw [List.flatMap_cons, rawRecords_append (whole_line isLine), alone,
        rawRecords_written here first, ih behind others]
      rfl

/-! Writing and reading. -/

/-- The files after events were written in turn; a write that is refused leaves them as they are. -/
def writeAllRaw (log : EventLog) (fs : Files) (events : List RawEvent) : Files :=
  events.foldl (fun fs r => (log.writeRaw r fs).getD fs) fs

theorem writeRaw_of_notFinite (log : EventLog) {r : RawEvent} (h : r.isFinite = false)
    (fs : Files) : log.writeRaw r fs = none := by
  rw [writeRaw, RawEvent.line?_of_notFinite h]
  rfl

theorem writeRaw_of_line? {log : EventLog} {r : RawEvent} {line : String} {fs fs' : Files}
    (written : r.line? = some line)
    (appended : (fs.makeDirectory log.directory).bind
      (·.append log.path (Text.encodeUtf8 line)) = .ok fs') : log.writeRaw r fs = some fs' := by
  rw [writeRaw, written, Option.bind_some, appended]
  rfl

theorem Works.writeAllRaw {log : EventLog} {fs : Files} (works : log.Works fs)
    {events : List RawEvent} (plain : ∀ r ∈ events, r.Plain) :
    ∃ lines : List String,
      (events.filter RawEvent.isFinite).map RawEvent.line? = lines.map some ∧
      log.Works (log.writeAllRaw fs events) ∧
      log.contents (log.writeAllRaw fs events) =
        log.contents fs ++ lines.flatMap Text.encodeUtf8 := by
  induction events generalizing fs with
  | nil => exact ⟨[], rfl, works, by simp [EventLog.writeAllRaw]⟩
  | cons r rest ih =>
    obtain ⟨here, behind⟩ := List.forall_mem_cons.mp plain
    cases finite : r.isFinite with
    | false =>
      obtain ⟨lines, written, still, contents⟩ := ih works behind
      have refused : log.writeAllRaw fs (r :: rest) = log.writeAllRaw fs rest := by
        simp [EventLog.writeAllRaw, writeRaw_of_notFinite log finite]
      rw [refused, List.filter_cons_of_neg (by simp [finite])]
      exact ⟨lines, written, still, contents⟩
    | true =>
      have line := RawEvent.line?_of_finite here finite
      obtain ⟨fs', appended, contents, still, _⟩ := works.append
        (Text.encodeUtf8 (String.ofList (r.toRaw.ordered.chars ++ ['\n'])))
      obtain ⟨lines, written, works', others⟩ := ih still behind
      have done : log.writeAllRaw fs (r :: rest) = log.writeAllRaw fs' rest := by
        simp [EventLog.writeAllRaw, writeRaw_of_line? line appended]
      rw [done, List.filter_cons_of_pos finite]
      refine ⟨String.ofList (r.toRaw.ordered.chars ++ ['\n']) :: lines, ?_, works', ?_⟩
      · rw [List.map_cons, List.map_cons, written, line]
      · rw [others, contents, List.flatMap_cons, List.append_assoc]

theorem Works.readRaw {log : EventLog} {fs : Files} (works : log.Works fs)
    (fits : ((log.contents fs).length : Int) ≤ log.window) (limit : Int) :
    log.readRaw limit fs = .ok (limited (min limit mostRecords)
      (rawRecords (Text.decodeUtf8 (log.contents fs))).reverse) := by
  rcases works.file with ⟨missing, empty⟩ | ⟨node, found, read⟩
  · have none : limited (min limit mostRecords) ([] : List RawValue) = [] := by simp [limited]
    rw [EventLog.readRaw, missing, empty, Text.decodeUtf8_nil]
    exact congrArg Except.ok none.symm
  · simp only [EventLog.readRaw, found, read, canSeek_of_fits fits, tail, fits, if_true]

/-- What is handed over in texts of characters is written as the log writes it, and records are read
as the log reads them, with characters in place of code points. -/
structure Agrees (log : EventLog) : Prop where
  write : ∀ e : Event, Value.Keyed (.table e.context) →
    (RawEvent.ofEvent e).toRaw.isShort = true →
      ∀ fs, log.writeRaw (.ofEvent e) fs = (log.write e fs).toOption
  read : ∀ q, Unfiltered q →
    ∀ fs, log.read q fs = (log.readRaw q.limit fs).map (List.map RawValue.toValue)

theorem records_eq (cs : List Char) : records cs = (rawRecords cs).map RawValue.toValue := by
  rw [records, rawRecords, List.map_filterMap]
  congr 1
  funext line
  dsimp only
  split <;> rfl

theorem limited_map {α β : Type} (f : α → β) (limit : Int) (vs : List α) :
    limited limit (vs.map f) = (limited limit vs).map f := by
  simp [limited, List.map_take]

theorem agrees (log : EventLog) : log.Agrees := by
  constructor
  · intro e keyed short fs
    rw [writeRaw, RawEvent.line?_ofEvent keyed short, EventLog.write]
    cases line? e with
    | none => rfl
    | some line =>
      cases appended : (fs.makeDirectory log.directory).bind
          (·.append log.path (Text.encodeUtf8 line)) with
      | error e => simp [appended, Except.toOption]
      | ok fs' => simp [appended, Except.toOption]
  · intro q all fs
    rw [EventLog.read, EventLog.readRaw]
    cases fs.find? log.path with
    | none => rfl
    | some node =>
      cases fs.read log.path with
      | error e => rfl
      | ok bytes =>
        cases seeks : canSeek log.window bytes with
        | false => simp [seeks, Except.map]
        | true =>
          simp only [seeks, if_true, select?_of_unfiltered all, recorded, records_eq,
            ← List.map_reverse, limited_map]
          rfl

/-- What a log does with events that are handed over to it one after the other. -/
structure Keeps (log : EventLog) (fs : Files) (events : List RawEvent) : Prop where
  /-- Each event that is not refused leaves one line at the end, and nothing else is left. -/
  lines : ∃ lines : List String,
    (events.filter RawEvent.isFinite).map RawEvent.line? = lines.map some ∧
    (∀ line ∈ lines, IsLine line) ∧
    log.contents (log.writeAllRaw fs events) = log.contents fs ++ lines.flatMap Text.encodeUtf8
  /-- Lines are equal exactly if events are, but for the order of keys. -/
  distinct : ∀ r ∈ events, ∀ r' ∈ events, r.isFinite = true → r'.isFinite = true →
    (r.line? = r'.line? ↔ r.Alike r')
  /-- The events are read newest first, and then what was read before, as far as the limit goes. -/
  read : ((log.contents (log.writeAllRaw fs events)).length : Int) ≤ log.window →
    ∀ limit : Int, 0 ≤ limit → ∃ written before,
      List.Forall₂ (fun v r => v.Alike r.toRaw) written (events.filter RawEvent.isFinite) ∧
      log.readRaw limit fs = .ok before ∧ log.readRaw limit (log.writeAllRaw fs events) =
        .ok ((written.reverse ++ before).take (min limit 2000).toNat)
  /-- An event with a number that is not finite is refused. -/
  refused : ∀ r ∈ events, r.isFinite = false → ∀ fs, log.writeRaw r fs = none

theorem isLine_of_rawLines {events : List RawEvent} {lines : List String}
    (written : events.map RawEvent.line? = lines.map some) : ∀ line ∈ lines, IsLine line := by
  intro line hl
  have mem : some line ∈ events.map RawEvent.line? := written ▸ List.mem_map_of_mem hl
  obtain ⟨r, _, hr⟩ := List.mem_map.mp mem
  exact RawEvent.isLine_of_line? hr

theorem forall₂_ordered {events : List RawEvent} (plain : ∀ r ∈ events, r.Plain) :
    List.Forall₂ (fun v r => v.Alike r.toRaw) (events.map fun r => r.toRaw.ordered) events := by
  rw [List.forall₂_map_left_iff]
  refine List.forall₂_same.mpr fun r hr => ?_
  exact (RawValue.alike_ordered (RawEvent.distinct_toRaw (plain r hr).distinct)).symm

/-- A log that works, and whose last line is finished, loses nothing of what is handed over to it. -/
theorem lossless {log : EventLog} {fs : Files} (works : log.Works fs)
    (whole : Whole (log.contents fs)) {events : List RawEvent} (plain : ∀ r ∈ events, r.Plain) :
    log.Keeps fs events ∧ log.Agrees := by
  have finitePlain : ∀ r ∈ events.filter RawEvent.isFinite, r.Plain :=
    fun r hr => plain r (List.mem_filter.mp hr).1
  obtain ⟨lines, written, still, contents⟩ := works.writeAllRaw plain
  refine ⟨⟨⟨lines, written, isLine_of_rawLines written, contents⟩, ?_, ?_, ?_⟩, agrees log⟩
  · intro r hr r' hr' finite finite'
    exact RawEvent.line?_eq_iff (plain r hr) (plain r' hr') finite finite'
  · intro fits limit nonneg
    -- the file has only grown, so it was read whole before as well
    have fitsBefore : ((log.contents fs).length : Int) ≤ log.window := by
      rw [contents, List.length_append] at fits
      omega
    have most : 0 ≤ min limit mostRecords := by
      unfold mostRecords
      omega
    have read := still.readRaw fits limit
    rw [contents, rawRecords_append whole, rawRecords_all finitePlain written,
      List.reverse_append, limited_of_nonneg most] at read
    refine ⟨_, _, forall₂_ordered finitePlain, works.readRaw fitsBefore limit, ?_⟩
    rw [read, limited_of_nonneg most]
    simp [mostRecords, List.take_append, List.take_take]
  · intro r _ h fs
    exact writeRaw_of_notFinite log h fs

/-- An event with texts beyond ASCII, half a pair of surrogates among them, with keys out of order and
a table inside a list. -/
def sampleEvent : RawEvent where
  level := .info
  kind := .recalcStarted
  message := .ofString "Summe \u2028 \u03C0"
  context :=
    [(.ofString "b", .list [.number 2.5,
      .table [(.ofString "n", .whole (-12)), (.ofString "\t", .text [.ofNat 0xDE00, .ofNat 0xD83D])]]),
     (.ofString "a", .flag true)]
  time := .ofString "2024"

/-- The event with a number that is not finite inside a list. -/
def refusedEvent : RawEvent :=
  { sampleEvent with context := [(.ofString "b", .list [.number (1.0 / 0.0)])] }

theorem sampleEvent_plain : sampleEvent.Plain := by
  have clear : (sampleEvent.toRaw.leaves.all fun
      | .text s => s.isUnpaired
      | _ => true) = true := by decide +kernel
  refine ⟨?_, fun s mem => List.all_eq_true.mp clear _ mem, by decide +kernel, ?_⟩
  · simp [sampleEvent, RawValue.Distinct, RawValue.DistinctEntries, RawValue.DistinctItems,
      RawText.ofString_inj]
  · have reads : Json.Reads 2.5 := by
      unfold Json.Reads
      decide +kernel
    simp [sampleEvent, RawEvent.toRaw, RawEvent.fields, RawEvent.optionalText, RawValue.leaves,
      RawValue.entryLeaves, RawValue.itemLeaves, reads]

theorem refusedEvent_plain : refusedEvent.Plain := by
  have clear : (refusedEvent.toRaw.leaves.all fun
      | .text s => s.isUnpaired
      | _ => true) = true := by decide +kernel
  refine ⟨?_, fun s mem => List.all_eq_true.mp clear _ mem, by decide +kernel, ?_⟩
  · simp [refusedEvent, RawValue.Distinct, RawValue.DistinctEntries, RawValue.DistinctItems]
  · have only : ∀ x, .number x ∈ refusedEvent.toRaw.leaves → x = 1.0 / 0.0 := by
      simp [refusedEvent, RawEvent.toRaw, RawEvent.fields, RawEvent.optionalText, RawValue.leaves,
        RawValue.entryLeaves, RawValue.itemLeaves, sampleEvent]
    intro x mem _ finite
    rw [only x mem] at finite
    exact absurd finite (by decide +kernel)

theorem lossless_of_samples :
    sampleLog.Works {} ∧ Whole (sampleLog.contents {}) ∧
      (∀ r ∈ [sampleEvent, refusedEvent, sampleEvent], r.Plain) ∧
      sampleLog.Keeps {} [sampleEvent, refusedEvent, sampleEvent] := by
  have whole : Whole (sampleLog.contents {}) := by
    simp [Whole, sampleLog_contents]
  have plain : ∀ r ∈ [sampleEvent, refusedEvent, sampleEvent], r.Plain := by
    simp [sampleEvent_plain, refusedEvent_plain]
  exact ⟨sampleLog_works, whole, plain, (lossless sampleLog_works whole plain).1⟩

/-- What is noted of a cell whose formula is one token that is no number. -/
def refusedToken (s : RawText) : RawEvent where
  level := .warning
  kind := .cellError
  message := .ofString "A1: InvalidNumber"
  context :=
    [(.ofString "label", .text (.ofString "A1")), (.ofString "formula", .list [.text s]),
      (.ofString "result", .number 0.0), (.ofString "error", .text (.ofString "InvalidNumber"))]
  errorCode := some (.ofString "formula_eval_error")
  time := .ofString "2024-01-02T03:04:05.678901Z"

/-- What is noted of a count. -/
def counted (i : Int) : RawEvent where
  level := .info
  kind := .recalcStarted
  context := [(.ofString "cells", .whole i)]

theorem line?_counted {i : Int} (long : Decimal.isWritable i = false) :
    (counted i).line? = none := by
  have refused : (counted i).toRaw.isShort = false := by
    simp [counted, RawEvent.toRaw, RawEvent.fields, RawValue.isShort, RawValue.leaves,
      RawValue.entryLeaves, long]
  rw [RawEvent.line?, refused, Bool.and_false, if_neg Bool.false_ne_true]

theorem isFinite_counted (i : Int) : (counted i).isFinite = true := rfl

theorem ordered_refusedToken (s : RawText) :
    (RawValue.table (refusedToken s).context).ordered = .table
      [(.ofString "error", .text (.ofString "InvalidNumber")),
       (.ofString "formula", .list [.text s]), (.ofString "label", .text (.ofString "A1")),
       (.ofString "result", .number 0.0)] := by
  have order := RawValue.byKey_texts
    [("label", .text (.ofString "A1")), ("formula", .list [.text s]), ("result", .number 0.0),
     ("error", .text (.ofString "InvalidNumber"))]
  simpa [refusedToken, RawValue.ordered, RawValue.orderedEntries, RawValue.orderedItems,
    List.mergeSort] using order

/-- A token leaves the same line as another one that is written like it. -/
theorem line?_refusedToken {s t : RawText} (same : s.chars = t.chars) :
    (refusedToken s).line? = (refusedToken t).line? := by
  have chars : (refusedToken s).toRaw.ordered.chars = (refusedToken t).toRaw.ordered.chars := by
    rw [RawEvent.ordered_toRaw, RawEvent.ordered_toRaw, ordered_refusedToken, ordered_refusedToken]
    simp only [refusedToken, RawValue.chars, RawValue.entryChars, RawValue.itemChars, same]
  have finite : (refusedToken s).toRaw.isFinite = (refusedToken t).toRaw.isFinite := rfl
  have short : (refusedToken s).toRaw.isShort = (refusedToken t).toRaw.isShort := rfl
  rw [RawEvent.line?, RawEvent.line?, chars, finite, short]

/-- The two surrogates of a character leave the line of the character, though the tokens are not the
same, and a count with too many digits leaves no line, though all its numbers are finite. -/
theorem surrogates_merge :
    (∃ line, (refusedToken [0xD83D, 0xDE00]).line? = some line ∧
      (refusedToken [0x1F600]).line? = some line) ∧
      ¬ (refusedToken [0xD83D, 0xDE00]).Alike (refusedToken [0x1F600]) ∧
      (counted (10 ^ Decimal.digitLimit : Nat)).isFinite = true ∧
      (counted (10 ^ Decimal.digitLimit : Nat)).line? = none := by
  refine ⟨?_, ?_, isFinite_counted _, line?_counted Decimal.isWritable_pow⟩
  · have accepted : ((refusedToken [0x1F600]).toRaw.isFinite &&
        (refusedToken [0x1F600]).toRaw.isShort) = true := by decide +kernel
    have written : (refusedToken [0x1F600]).line? = some _ := if_pos accepted
    exact ⟨_, (line?_refusedToken (by decide +kernel)).trans written, written⟩
  · intro same
    have merged := RawValue.ordered_of_alike same.context
    rw [ordered_refusedToken, ordered_refusedToken] at merged
    simp at merged

end EventLog

end FormulaSheet
