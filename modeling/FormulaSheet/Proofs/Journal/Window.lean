import FormulaSheet.Proofs.Journal.Records
/-!
The last bytes of a log. Where the log is longer than the window, everything up to the first line
feed in the window is dropped, so a line is seen if and only if the window begins in front of it: a
line that it cuts is not seen, nor is one that it begins with. What is seen are whole lines, and
each of them is read as it would be by itself.
-/

namespace FormulaSheet.EventLog

/-- What stands behind the first line feed; everything if there is none. -/
def pastFeed (bytes : List UInt8) : List UInt8 :=
  if bytes.contains 0x0A then (bytes.dropWhile (· != 0x0A)).drop 1 else bytes

theorem tail_of_lt {window : Int} {bytes : List UInt8} (h : window < bytes.length) :
    tail window bytes = pastFeed (bytes.drop ((bytes.length : Int) - window).toNat) := by
  rw [tail, if_neg (Int.not_le.mpr h)]
  rfl

theorem pastFeed_feed {body : List UInt8} (free : 0x0A ∉ body) (behind : List UInt8) :
    pastFeed (body ++ 0x0A :: behind) = behind := by
  have passed : ∀ b ∈ body, (b != 0x0A) = true := by
    intro b hb
    rw [bne_iff_ne]
    rintro rfl
    exact free hb
  rw [pastFeed, if_pos (by simp), List.dropWhile_append_of_pos passed]
  rfl

theorem pastFeed_append {front : List UInt8} (feed : 0x0A ∈ front) :
    ∃ kept, kept <:+ front ∧ ∀ rest, pastFeed (front ++ rest) = kept ++ rest := by
  obtain ⟨body, kept, rfl, free⟩ := List.eq_append_cons_of_mem feed
  refine ⟨kept, ⟨body ++ [0x0A], by simp⟩, fun rest => ?_⟩
  rw [List.append_assoc, List.cons_append, pastFeed_feed free]

theorem Whole.suffix {bytes kept : List UInt8} (h : Whole bytes) (suffix : kept <:+ bytes) :
    Whole kept := by
  obtain ⟨front, rfl⟩ := suffix
  intro b hb
  apply h b
  rw [Option.mem_def] at hb ⊢
  rw [List.getLast?_append, hb]
  rfl

theorem Whole.mem_drop {bytes : List UInt8} (h : Whole bytes) {n : Nat} (some : n < bytes.length) :
    0x0A ∈ bytes.drop n := by
  have remains : bytes.drop n ≠ [] := by simpa using some
  have last := List.getLast?_eq_some_getLast remains
  rw [← h.suffix (List.drop_suffix n bytes) _ last]
  exact List.getLast_mem remains

/-- What stands behind whole lines is seen if the window begins in front of it. -/
theorem tail_append {window : Int} {front rest : List UInt8} (whole : Whole front)
    (seen : ((front ++ rest).length : Int) ≤ window ∨
      ((front ++ rest).length : Int) - window < front.length) :
    ∃ kept, Whole kept ∧ tail window (front ++ rest) = kept ++ rest := by
  by_cases fits : ((front ++ rest).length : Int) ≤ window
  · exact ⟨front, whole, if_pos fits⟩
  · have begins := seen.resolve_left fits
    have inside : (((front ++ rest).length : Int) - window).toNat < front.length := by omega
    obtain ⟨kept, suffix, past⟩ := pastFeed_append (whole.mem_drop inside)
    refine ⟨kept, whole.suffix (suffix.trans (List.drop_suffix _ _)), ?_⟩
    rw [tail_of_lt (Int.not_le.mp fits), List.drop_append_of_le_length (Nat.le_of_lt inside), past]

/-! A log of lines. -/

/-- Cut anywhere, lines are seen from the first one on that begins behind the cut. -/
theorem pastFeed_lines {lines : List String} (isLine : ∀ line ∈ lines, IsLine line) (n : Nat) :
    ∃ k, pastFeed ((lines.flatMap Text.encodeUtf8).drop n) =
        (lines.drop k).flatMap Text.encodeUtf8 ∧
      ∀ i < lines.length, k ≤ i ↔ n < ((lines.take i).flatMap Text.encodeUtf8).length := by
  induction lines generalizing n with
  | nil => exact ⟨0, by simp [pastFeed], by simp⟩
  | cons line rest ih =>
    obtain ⟨body, bytes, free⟩ := exists_body (isLine line List.mem_cons_self)
    have length := congrArg List.length bytes
    rw [List.length_append, List.length_singleton] at length
    rw [List.flatMap_cons]
    by_cases here : n ≤ body.length
    · -- the cut falls into this line, whose end is the first line feed behind it
      refine ⟨1, ?_, ?_⟩
      · have freeBehind : 0x0A ∉ body.drop n := fun mem => free (List.mem_of_mem_drop mem)
        rw [bytes, List.append_assoc, List.drop_append_of_le_length here, List.singleton_append,
          pastFeed_feed freeBehind]
        rfl
      · intro i _
        cases i with
        | zero => simp
        | succ i =>
          simp only [List.take_succ_cons, List.flatMap_cons, List.length_append]
          omega
    · obtain ⟨k, past, behind⟩ :=
        ih (fun l hl => isLine l (List.mem_cons_of_mem line hl)) (n - (body.length + 1))
      refine ⟨k + 1, ?_, ?_⟩
      · have beyond : (Text.encodeUtf8 line).length ≤ n := by omega
        rw [List.drop_append, List.drop_eq_nil_of_le beyond, length, List.nil_append, past]
        rfl
      · intro i hi
        cases i with
        | zero => simp
        | succ i =>
          have later := behind i (Nat.lt_of_succ_lt_succ hi)
          simp only [List.take_succ_cons, List.flatMap_cons, List.length_append]
          omega

/-- The bytes that the lines of events take. -/
def size (events : List Event) : Nat := ((events.filterMap line?).flatMap Text.encodeUtf8).length

theorem filterMap_line? {events : List Event} {lines : List String}
    (written : events.map line? = lines.map some) : events.filterMap line? = lines := by
  have same := congrArg (List.filterMap id) written
  simpa [List.filterMap_map] using same

theorem size_drop {events : List Event} {lines : List String}
    (written : events.map line? = lines.map some) (i : Nat) :
    size (events.drop i) = ((lines.drop i).flatMap Text.encodeUtf8).length := by
  have behind : (events.drop i).map line? = (lines.drop i).map some := by
    rw [List.map_drop, List.map_drop, written]
  rw [size, filterMap_line? behind]

theorem length_lines (lines : List String) (i : Nat) :
    ((lines.take i).flatMap Text.encodeUtf8).length +
      ((lines.drop i).flatMap Text.encodeUtf8).length =
        (lines.flatMap Text.encodeUtf8).length := by
  rw [← List.length_append, ← List.flatMap_append, List.take_append_drop]

/-- Of the lines of events those are seen that lie within the window, but for one that begins where
the window begins in a longer log. -/
theorem tail_lines {events : List Event} {lines : List String}
    (written : events.map line? = lines.map some) (window : Int) :
    ∃ k, tail window (lines.flatMap Text.encodeUtf8) = (lines.drop k).flatMap Text.encodeUtf8 ∧
      ∀ i < events.length, k ≤ i ↔ (size (events.drop i) : Int) ≤ window ∧
        ((size (events.drop i) : Int) = window → (size events : Int) ≤ window) := by
  have many : events.length = lines.length := by
    simpa using congrArg List.length written
  have whole : size events = (lines.flatMap Text.encodeUtf8).length := size_drop written 0
  simp only [size_drop written, whole, many]
  by_cases fits : ((lines.flatMap Text.encodeUtf8).length : Int) ≤ window
  · refine ⟨0, if_pos fits, fun i _ => ?_⟩
    have := length_lines lines i
    omega
  · obtain ⟨k, past, behind⟩ := pastFeed_lines (isLine_of_lines written)
      (((lines.flatMap Text.encodeUtf8).length : Int) - window).toNat
    refine ⟨k, by rw [tail_of_lt (Int.not_le.mp fits), past], fun i hi => ?_⟩
    have := length_lines lines i
    rw [behind i hi]
    omega

/-- What is read of events that a log took from its beginning on: all that begin behind some
point. -/
theorem read_lines {log : EventLog} {fs : Files} (works : log.Works fs)
    (fresh : log.contents fs = []) {events : List Event}
    (accepted : ∀ e ∈ events, e.isFinite = true) (window : 0 ≤ log.window)
    (small : size events < Nat.pow 2 63) {q : EventQuery} (all : Unfiltered q)
    (enough : (events.length : Int) ≤ q.limit) (most : q.limit ≤ 2000) :
    ∃ k, (∀ i < events.length, k ≤ i ↔ (size (events.drop i) : Int) ≤ log.window ∧
        ((size (events.drop i) : Int) = log.window → (size events : Int) ≤ log.window)) ∧
      log.read q (log.writeAll fs events) =
        .ok ((events.drop k).filterMap readBack?).reverse := by
  obtain ⟨lines, written, still, contents⟩ := works.writeAll events
  rw [List.filter_eq_self.mpr accepted] at written
  rw [fresh, List.nil_append] at contents
  obtain ⟨k, seen, within⟩ := tail_lines written log.window
  refine ⟨k, within, ?_⟩
  have whole : size events = (lines.flatMap Text.encodeUtf8).length := size_drop written 0
  have seeks : canSeek log.window (log.contents (log.writeAll fs events)) = true := by
    rw [contents, canSeek]
    exact decide_eq_true (by omega)
  have behind : (events.drop k).map line? = (lines.drop k).map some := by
    rw [List.map_drop, List.map_drop, written]
  have few : ((events.drop k).filterMap readBack?).reverse.length ≤ events.length := by
    rw [List.length_reverse]
    exact Nat.le_trans (List.length_filterMap_le _ _) (by simp)
  have limit : min q.limit mostRecords = q.limit := by
    unfold mostRecords
    omega
  rw [still.read_window seeks, select?_of_unfiltered all, recorded, contents, seen,
    records_all behind, limit, limited_of_nonneg (by omega), List.take_of_length_le (by omega)]
  rfl

/-- From the last bytes of a log the events are read, newest first, whose lines lie within these
bytes, but for one whose line begins where they begin in a longer log. -/
theorem bounded_read {log : EventLog} {fs : Files} (works : log.Works fs)
    (fresh : log.contents fs = []) {events : List Event}
    (accepted : ∀ e ∈ events, e.isFinite = true) (window : 0 ≤ log.window)
    (small : size events < Nat.pow 2 63) {q : EventQuery} (all : Unfiltered q)
    (enough : (events.length : Int) ≤ q.limit) (most : q.limit ≤ 2000) :
    ∃ k, (∀ i < events.length, k ≤ i ↔ (size (events.drop i) : Int) ≤ log.window ∧
        ((size (events.drop i) : Int) = log.window → (size events : Int) ≤ log.window)) ∧
      log.read q (log.writeAll fs events) =
        .ok ((events.drop k).filterMap readBack?).reverse ∧
      ∀ e ∈ events, e.Plain → ∃ v, readBack? e = some v ∧ v.Alike e.toValue := by
  obtain ⟨k, within, read⟩ := read_lines works fresh accepted window small all enough most
  refine ⟨k, within, read, fun e he plain => ?_⟩
  exact ⟨record e, read?_record plain (accepted e he),
    Json.alike_sorted (Event.keyed_toValue plain.keyed)⟩

/-- An event whose line takes 163 bytes if the number has one digit. -/
def startedEvent (cells : Nat) : Event := (Notice.started cells).at "t"

theorem record_startedEvent (cells : Nat) : record (startedEvent cells) = .table
    [(.text "context", .table [(.text "cells", .whole cells)]),
     (.text "error_code", .null),
     (.text "event_type", .text "recalc_started"),
     (.text "level", .text "info"),
     (.text "message", .text (Notice.started cells).message),
     (.text "schema_version", .whole 1),
     (.text "ts", .text "t")] := by
  have context : Json.sorted (.table (startedEvent cells).context) =
      .table [(.text "cells", .whole cells)] := by
    have order := Json.byKey_texts [("cells", .whole cells)]
    simpa [startedEvent, Notice.at, Notice.started, Json.sorted, Json.sortedEntries] using order
  rw [record_eq, context]
  rfl

theorem floats_startedEvent (cells : Nat) : (startedEvent cells).floats = [] := rfl

theorem finite_startedEvent (cells : Nat) : (startedEvent cells).isFinite = true := by
  rw [Event.isFinite, floats_startedEvent]
  rfl

theorem startedEvent_plain (cells : Nat) : (startedEvent cells).Plain := by
  constructor
  · simp only [startedEvent, Notice.at, Notice.started, Value.Keyed, Value.KeyedEntries]
    constructor
    · constructor <;> simp
    · trivial
  · simp [floats_startedEvent]

theorem length_startedEvent :
    ∀ cells < 10, (Json.chars (record (startedEvent cells))).length = 162 := by
  intro cells digit
  rw [record_startedEvent]
  revert cells
  decide +kernel

theorem size_startedEvents (cells : List Nat) (digits : ∀ n ∈ cells, n < 10) :
    size (cells.map startedEvent) = 163 * cells.length := by
  induction cells with
  | nil => rfl
  | cons n rest ih =>
    have others := ih fun m hm => digits m (List.mem_cons_of_mem n hm)
    have chars := length_startedEvent n (digits n List.mem_cons_self)
    rw [size] at others ⊢
    rw [List.map_cons, List.filterMap_cons_some (line?_of_finite (finite_startedEvent n)),
      List.flatMap_cons, List.length_append, others, Text.encodeUtf8_ascii
        (ascii_of_isLine (Json.isPlainChar_chars _)), List.length_map, List.length_append, chars]
    simp only [List.length_cons, List.length_nil]
    omega

/-- A log of which so many bytes are read. -/
def windowLog (window : Int) : EventLog := { sampleLog with window }

theorem windowLog_works (window : Int) : (windowLog window).Works {} := sampleLog_works

theorem windowLog_contents (window : Int) : (windowLog window).contents {} = [] :=
  sampleLog_contents

def twoEvents : List Event := [3, 4].map startedEvent

theorem twoEvents_accepted : ∀ e ∈ twoEvents, e.isFinite = true := by
  simp [twoEvents, finite_startedEvent]

theorem size_drop_twoEvents (i : Nat) : size (twoEvents.drop i) = 163 * (2 - i) := by
  have digits : ∀ n ∈ [3, 4].drop i, n < 10 := by
    intro n hn
    have mem := List.mem_of_mem_drop hn
    simp at mem
    omega
  rw [twoEvents, ← List.map_drop, size_startedEvents _ digits, List.length_drop]
  rfl

theorem size_twoEvents : size twoEvents = 326 := size_drop_twoEvents 0

theorem twoEvents_small : size twoEvents < Nat.pow 2 63 := by
  rw [size_twoEvents]
  decide

theorem bounded_read_of_two :
    (windowLog 200).Works {} ∧ (windowLog 200).contents {} = [] ∧
      (∀ e ∈ twoEvents, e.isFinite = true) ∧ size twoEvents < Nat.pow 2 63 ∧ Unfiltered {} ∧
      (windowLog 200).read {} ((windowLog 200).writeAll {} twoEvents) =
        .ok [record (startedEvent 4)] := by
  have all : Unfiltered {} := ⟨rfl, rfl, rfl⟩
  refine ⟨windowLog_works 200, windowLog_contents 200, twoEvents_accepted, twoEvents_small, all, ?_⟩
  obtain ⟨k, within, read, _⟩ := bounded_read (windowLog_works 200) (windowLog_contents 200)
    twoEvents_accepted (by decide) twoEvents_small all (by decide) (by decide)
  have first := within 0 (by decide)
  have second := within 1 (by decide)
  simp only [size_drop_twoEvents, windowLog] at first second
  obtain rfl : k = 1 := by omega
  have there := read?_record (startedEvent_plain 4) (finite_startedEvent 4)
  rw [read]
  simp [twoEvents, readBack?, there]

/-- Where the last bytes of a log are a line, this line is not seen. -/
theorem whole_line_unseen :
    (windowLog 163).Works {} ∧ (windowLog 163).contents {} = [] ∧
      (size [startedEvent 4] : Int) = (windowLog 163).window ∧
      (windowLog 163).read {} ((windowLog 163).writeAll {} [startedEvent 3, startedEvent 4]) =
        .ok [] := by
  have all : Unfiltered {} := ⟨rfl, rfl, rfl⟩
  obtain ⟨k, within, read⟩ := read_lines (windowLog_works 163) (windowLog_contents 163)
    twoEvents_accepted (by decide) twoEvents_small all (by decide) (by decide)
  have second := within 1 (by decide)
  simp only [size_drop_twoEvents, size_twoEvents, windowLog] at second
  have none : twoEvents.drop k = [] := List.drop_eq_nil_of_le (by change 2 ≤ k; omega)
  rw [none] at read
  exact ⟨windowLog_works 163, windowLog_contents 163,
    congrArg Nat.cast (size_drop_twoEvents 1), read⟩

end FormulaSheet.EventLog
