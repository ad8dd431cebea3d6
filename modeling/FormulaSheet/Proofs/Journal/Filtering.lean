import FormulaSheet.Proofs.Journal.Queries
/-!
Filters and limits over a log of written events. Whatever stands in the context of an event, its
line reads as a table that has the event's level, kind and label, so no filter fails on it and a
filter admits it if and only if the event is wanted. Of the wanted events, newest first, a query
takes as many as its limit says, 2000 at most. A limit below zero is no count: it takes as many of
the oldest wanted events away and gives the others.
-/

namespace FormulaSheet

namespace EventLog

/-! Fields of records that are read back. -/

theorem isText_reread (s : String) (v : Value) : isText s (Json.reread v) = isText s v := by
  cases v <;> rfl

theorem hasText_reread {entries : List (Value × Value)} (keys : Value.TextKeys entries)
    (name s : String) :
    hasText name s (Json.reread (.table entries)) = hasText name s (.table entries) := by
  rw [Json.reread_table keys]
  simp only [hasText, Value.find?_map]
  cases Value.find? name entries with
  | none => rfl
  | some v => exact isText_reread s v

theorem hasLabel_reread {entries inner : List (Value × Value)} (keys : Value.TextKeys entries)
    (context : Value.find? "context" entries = some (.table inner))
    (innerKeys : Value.TextKeys inner) (s : String) :
    hasLabel s (Json.reread (.table entries)) = hasLabel s (.table entries) := by
  rw [Json.reread_table keys]
  simp only [hasLabel, Value.find?_map, context, Option.map_some]
  exact hasText_reread innerKeys "label" s

theorem wellFormed_reread {entries inner : List (Value × Value)} (keys : Value.TextKeys entries)
    (context : Value.find? "context" entries = some (.table inner)) :
    wellFormed (Json.reread (.table entries)) = true := by
  rw [Json.reread_table keys]
  simp only [wellFormed, Value.find?_map, context, Option.map_some, Json.reread, Option.getD_some,
    Value.isTable]

/-- The record of an event is a table with a table as its context. -/
theorem exists_fields {e : Event} (keys : Value.TextKeys e.context) :
    ∃ entries inner, record e = .table entries ∧ Value.TextKeys entries ∧
      Value.find? "context" entries = some (.table inner) ∧ Value.TextKeys inner := by
  have sortedKeys := Json.textKeys_sortedEntries keys
  refine ⟨_, _, record_eq e, ⟨by simp, by simp⟩, rfl, ?_⟩
  exact sortedKeys.perm (Json.byKey_perm _).symm

theorem admits_reading {q : EventQuery} {e : Event} (keys : Value.TextKeys e.context) :
    q.admits (reading e) = true ↔ q.Matches e := by
  obtain ⟨entries, inner, fields, distinct, context, innerKeys⟩ := exists_fields keys
  rw [← admits_record keys, reading, fields]
  simp only [EventQuery.admits, EventQuery.admitsLevel, EventQuery.admitsKind,
    EventQuery.admitsLabel, hasText_reread distinct, hasLabel_reread distinct context innerKeys]

theorem wellFormed_reading {e : Event} (keys : Value.TextKeys e.context) :
    wellFormed (reading e) = true := by
  obtain ⟨entries, inner, fields, distinct, context, _⟩ := exists_fields keys
  rw [reading, fields]
  exact wellFormed_reread distinct context

end EventLog

namespace EventQuery

theorem any_isText_iff {s : String} {found : Option Value} :
    found.any (EventLog.isText s) = true ↔ found = some (.text s) := by
  cases found with
  | none => simp
  | some v => simp [EventLog.isText_iff]

instance (q : EventQuery) (e : Event) : Decidable (q.Matches e) :=
  decidable_of_iff ((q.level = "" ∨ q.level = e.level.name) ∧
    (q.kind = "" ∨ q.kind = e.kind.name) ∧
      (q.label = "" ∨
        (Value.find? "label" e.context).any (EventLog.isText (Text.upper q.label)) = true))
    (by rw [any_isText_iff, Matches])

/-- The events that a query is about, newest first. -/
def wanted (q : EventQuery) (events : List Event) : List Event :=
  (events.filter fun e => q.Matches e).reverse

end EventQuery

namespace EventLog

theorem filter_readings {q : EventQuery} {events : List Event}
    (keys : ∀ e ∈ events, Value.TextKeys e.context) :
    ((events.map reading).filter q.admits).reverse = (q.wanted events).map reading := by
  have same : ∀ e ∈ events, q.admits (reading e) = decide (q.Matches e) := by
    intro e he
    rw [Bool.eq_iff_iff, decide_eq_true_iff]
    exact admits_reading (keys e he)
  rw [List.filter_map, EventQuery.wanted, List.map_reverse]
  exact congrArg (fun es => (es.map reading).reverse) (List.filter_congr same)

/-- A read of a log of written events: the readings of the wanted ones, cut to the limit. -/
theorem Works.read_written {log : EventLog} {fs : Files} (works : log.Works fs)
    (fresh : log.contents fs = []) {events : List Event}
    (keys : ∀ e ∈ events, Value.TextKeys e.context)
    (fits : ((log.contents (log.writeAll fs events)).length : Int) ≤ log.window) (q : EventQuery) :
    log.read q (log.writeAll fs events) = .ok (limited (min q.limit mostRecords)
      ((q.wanted (events.filter Event.isFinite)).map reading)) := by
  obtain ⟨lines, written, still, contents⟩ := works.writeAll events
  rw [fresh, List.nil_append] at contents
  have acceptedKeys : ∀ e ∈ events.filter Event.isFinite, Value.TextKeys e.context :=
    fun e he => keys e (List.mem_filter.mp he).1
  have asked : ∀ v ∈ (events.filter Event.isFinite).map reading, q.CanAsk v := by
    intro v hv
    obtain ⟨e, he, rfl⟩ := List.mem_map.mp hv
    exact canAsk_of_wellFormed (wellFormed_reading (acceptedKeys e he))
  rw [still.read_window (canSeek_of_fits fits), mapError_eq_ok_iff, recorded_of_fits fits, contents,
    records_readings written, select?_eq_ok_iff]
  exact ⟨asked, by rw [filter_readings acceptedKeys]⟩

/-- The value is what the line of the event reads as: its record but for the order of keys, if the
event is plain. -/
def Tells (v : Value) (e : Event) : Prop :=
  readBack? e = some v ∧ (e.Plain → v.Alike e.toValue)

theorem tells_reading {e : Event} (finite : e.isFinite = true) : Tells (reading e) e := by
  refine ⟨readBack?_of_finite finite, fun plain => ?_⟩
  rw [reading_of_plain plain finite]
  exact Json.alike_sorted (Event.keyed_toValue plain.keyed)

theorem forall₂_tells {events : List Event} (accepted : ∀ e ∈ events, e.isFinite = true) :
    List.Forall₂ Tells (events.map reading) events := by
  rw [List.forall₂_map_left_iff]
  exact List.forall₂_same.mpr fun e he => tells_reading (accepted e he)

theorem limited_of_neg {limit : Int} (h : limit < 0) (vs : List Value) :
    limited limit vs = vs.take (vs.length - limit.natAbs) := by
  rw [limited, if_pos h]
  congr 1
  omega

theorem Works.length_writeAll {log : EventLog} {fs : Files} (works : log.Works fs)
    (fresh : log.contents fs = []) (events : List Event) :
    (log.contents (log.writeAll fs events)).length = size (events.filter Event.isFinite) := by
  obtain ⟨lines, written, _, contents⟩ := works.writeAll events
  rw [contents, fresh, List.nil_append]
  exact (size_drop written 0).symm

/-- A read of a log of written events gives the newest events that the query is about: as many as
its limit says, 2000 at most, and for a limit below zero all but as many as it says of the
oldest. -/
theorem filtered_read {log : EventLog} {fs : Files} (works : log.Works fs)
    (fresh : log.contents fs = []) {events : List Event}
    (keys : ∀ e ∈ events, Value.TextKeys e.context)
    (fits : ((log.contents (log.writeAll fs events)).length : Int) ≤ log.window) (q : EventQuery) :
    ∃ found, log.read q (log.writeAll fs events) = .ok found ∧
      (0 ≤ q.limit → (found.length : Int) ≤ min q.limit 2000 ∧ List.Forall₂ Tells found
        ((q.wanted (events.filter Event.isFinite)).take (min q.limit 2000).toNat)) ∧
      (q.limit < 0 → List.Forall₂ Tells found
        ((q.wanted (events.filter Event.isFinite)).take
          ((q.wanted (events.filter Event.isFinite)).length - q.limit.natAbs))) := by
  have told : ∀ n, List.Forall₂ Tells
      (((q.wanted (events.filter Event.isFinite)).map reading).take n)
      ((q.wanted (events.filter Event.isFinite)).take n) := by
    intro n
    rw [← List.map_take]
    apply forall₂_tells
    intro e he
    have accepted := List.mem_filter.mp (List.mem_reverse.mp (List.mem_of_mem_take he))
    exact (List.mem_filter.mp accepted.1).2
  have cap : mostRecords = 2000 := rfl
  rw [works.read_written fresh keys fits q, cap]
  refine ⟨_, rfl, fun limit => ?_, fun limit => ?_⟩
  · rw [limited_of_nonneg (by omega)]
    have few := List.length_take_le (min q.limit 2000).toNat
      ((q.wanted (events.filter Event.isFinite)).map reading)
    exact ⟨by omega, told _⟩
  · rw [Int.min_eq_left (by omega), limited_of_neg limit, List.length_map]
    exact told _

theorem twoEvents_fit :
    ((sampleLog.contents (sampleLog.writeAll {} twoEvents)).length : Int) ≤ sampleLog.window := by
  rw [sampleLog_works.length_writeAll sampleLog_contents, List.filter_eq_self.mpr twoEvents_accepted,
    size_twoEvents]
  decide

theorem twoEvents_keys : ∀ e ∈ twoEvents, Value.TextKeys e.context := by
  simp [twoEvents, (startedEvent_plain _).textKeys]

/-- A limit of minus one reads one of two events. -/
theorem negative_limit_reads :
    sampleLog.Works {} ∧ sampleLog.contents {} = [] ∧
      (∀ e ∈ twoEvents, Value.TextKeys e.context ∧ e.isFinite = true) ∧
      ((sampleLog.contents (sampleLog.writeAll {} twoEvents)).length : Int) ≤ sampleLog.window ∧
      ({ limit := -1 } : EventQuery).wanted twoEvents = [startedEvent 4, startedEvent 3] ∧
      (min (max ({ limit := -1 } : EventQuery).limit 0) 2000).toNat = 0 ∧
      sampleLog.read { limit := -1 } (sampleLog.writeAll {} twoEvents) =
        .ok [record (startedEvent 4)] := by
  refine ⟨sampleLog_works, sampleLog_contents, fun e he => ⟨twoEvents_keys e he,
    twoEvents_accepted e he⟩, twoEvents_fit, rfl, rfl, ?_⟩
  have read := sampleLog_works.read_written sampleLog_contents twoEvents_keys twoEvents_fit
    { limit := -1 }
  rw [read, List.filter_eq_self.mpr twoEvents_accepted,
    ← reading_of_plain (startedEvent_plain 4) (finite_startedEvent 4)]
  rfl

theorem filtered_read_of_two :
    sampleLog.Works {} ∧ sampleLog.contents {} = [] ∧
      (∀ e ∈ twoEvents, Value.TextKeys e.context) ∧
      ((sampleLog.contents (sampleLog.writeAll {} twoEvents)).length : Int) ≤ sampleLog.window ∧
      ∃ v, sampleLog.read { level := "info", kind := "recalc_started", limit := 1 }
        (sampleLog.writeAll {} twoEvents) = .ok [v] ∧ Tells v (startedEvent 4) := by
  refine ⟨sampleLog_works, sampleLog_contents, twoEvents_keys, twoEvents_fit, ?_⟩
  obtain ⟨found, read, told, _⟩ := filtered_read sampleLog_works sampleLog_contents twoEvents_keys
    twoEvents_fit { level := "info", kind := "recalc_started", limit := 1 }
  have told := (told (by decide)).2
  rw [List.filter_eq_self.mpr twoEvents_accepted] at told
  change List.Forall₂ Tells found [startedEvent 4] at told
  obtain ⟨v, rest, tells, none, rfl⟩ := List.forall₂_cons_right_iff.mp told
  cases none
  exact ⟨v, read, tells⟩

end EventLog

end FormulaSheet
