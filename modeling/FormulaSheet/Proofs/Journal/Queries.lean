import FormulaSheet.Proofs.Journal.Window
/-!
What a query gives back. A filter asks every record that the filters in front of it let through, and
only a table can be asked, and for its label only one whose context is a table as well. Where all
records in the window can be asked, those that the filters admit are given back; where one cannot,
the whole read fails. In foreign lines an escaped unit of a surrogate pair that stands alone counts
as the replacement character, here as wherever lines are read; no key that a filter asks for has
one.
-/

namespace FormulaSheet

theorem Files.find?_of_read {fs : Files} {p : Path} {bytes : List UInt8}
    (h : fs.read p = .ok bytes) : fs.find? p = some (.file bytes) := by
  unfold Files.read at h
  unfold Files.find?
  split at h <;> simp_all

namespace EventLog

/-- The field of a table is this text. -/
def hasText (name s : String) : Value → Bool
  | .table entries =>
    match Value.find? name entries with
    | some found => isText s found
    | none => false
  | _ => false

/-- The label in the context of a table is this text. -/
def hasLabel (s : String) : Value → Bool
  | .table entries =>
    match Value.find? "context" entries with
    | some context => hasText "label" s context
    | none => false
  | _ => false

/-- A table whose context, if it has one, is a table. -/
def wellFormed : Value → Bool
  | .table entries => ((Value.find? "context" entries).getD (.table [])).isTable
  | _ => false

end EventLog

namespace EventQuery

open EventLog

def admitsLevel (q : EventQuery) (v : Value) : Bool := q.level = "" || hasText "level" q.level v

def admitsKind (q : EventQuery) (v : Value) : Bool := q.kind = "" || hasText "event_type" q.kind v

def admitsLabel (q : EventQuery) (v : Value) : Bool :=
  q.label = "" || hasLabel (Text.upper q.label) v

def admits (q : EventQuery) (v : Value) : Bool :=
  q.admitsLevel v && q.admitsKind v && q.admitsLabel v

/-- No filter fails on the record: with any filter it is a table, and where it comes to the label
its context is a table too. -/
def CanAsk (q : EventQuery) (v : Value) : Prop :=
  (¬ Unfiltered q → v.isTable = true) ∧
    (q.label ≠ "" → q.admitsLevel v = true → q.admitsKind v = true → wellFormed v = true)

/-- The event has the level and the kind, and its label is the wanted one in capitals. -/
def Matches (q : EventQuery) (e : Event) : Prop :=
  (q.level = "" ∨ q.level = e.level.name) ∧ (q.kind = "" ∨ q.kind = e.kind.name) ∧
    (q.label = "" ∨ Value.find? "label" e.context = some (.text (Text.upper q.label)))

end EventQuery

namespace EventLog

/-! One filter. -/

/-- The record gives the wanted text. -/
def gives (get : Value → Except FilterError Value) (wanted : String) (v : Value) : Bool :=
  match get v with
  | .ok found => isText wanted found
  | .error _ => false

theorem select_eq_ok_iff (get : Value → Except FilterError Value) (wanted : String)
    {vs found : List Value} :
    select get wanted vs = .ok found ↔
      (∀ v ∈ vs, ∃ w, get v = .ok w) ∧ found = vs.filter (gives get wanted) := by
  induction vs generalizing found with
  | nil => simp [select, eq_comm]
  | cons v rest ih =>
    cases here : get v with
    | error e => simp [select, here, bind, Except.bind]
    | ok w =>
      cases others : select get wanted rest with
      | error e =>
        have none : ¬ ∀ u ∈ rest, ∃ w, get u = .ok w := by
          intro all
          rw [ih.mpr ⟨all, rfl⟩] at others
          cases others
        simp only [select, here, others, bind, Except.bind]
        constructor
        · intro h
          cases h
        · rintro ⟨all, -⟩
          exact absurd (fun u hu => all u (List.mem_cons_of_mem v hu)) none
      | ok more =>
        obtain ⟨all, rfl⟩ := ih.mp others
        have fits : gives get wanted v = isText wanted w := by
          rw [gives, here]
        simp only [select, here, others, bind, Except.bind, pure, Except.pure, Except.ok.injEq,
          List.filter_cons, fits, List.forall_mem_cons, eq_comm (a := found)]
        exact ⟨fun h => ⟨⟨⟨w, rfl⟩, all⟩, h⟩, fun h => h.2⟩

theorem ok_field_iff (name : String) {v : Value} :
    (∃ w, field name v = .ok w) ↔ v.isTable = true := by
  cases v <;> simp [field, Value.isTable]

theorem gives_field (name s : String) (v : Value) :
    gives (field name) s v = hasText name s v := by
  cases v with
  | table entries =>
    cases h : Value.find? name entries <;> simp [gives, field, hasText, h, isText]
  | _ => rfl

theorem ok_labelOf_iff {v : Value} : (∃ w, labelOf v = .ok w) ↔ wellFormed v = true := by
  cases v with
  | table entries =>
    cases h : Value.find? "context" entries with
    | none => simp [labelOf, wellFormed, h, Value.isTable]
    | some context => simp only [labelOf, wellFormed, h, Option.getD_some, ok_field_iff]
  | _ => simp [labelOf, wellFormed]

theorem gives_labelOf {s : String} (v : Value) : gives labelOf s v = hasLabel s v := by
  cases v with
  | table entries =>
    cases h : Value.find? "context" entries with
    | none => simp [gives, labelOf, hasLabel, h, isText]
    | some context =>
      have field := gives_field "label" s context
      rw [gives] at field ⊢
      simpa only [labelOf, hasLabel, h] using field
  | _ => rfl

/-- A filter that may ask for nothing, which lets everything through. -/
def pass (get : Value → Except FilterError Value) (wanted s : String) (vs : List Value) :
    Except FilterError (List Value) :=
  if wanted = "" then .ok vs else select get s vs

theorem pass_eq_ok_iff {get : Value → Except FilterError Value} {wanted s : String}
    {vs found : List Value} :
    pass get wanted s vs = .ok found ↔ (wanted ≠ "" → ∀ v ∈ vs, ∃ w, get v = .ok w) ∧
      found = vs.filter fun v => wanted = "" || gives get s v := by
  by_cases none : wanted = ""
  · simp [pass, none, eq_comm]
  · simp [pass, none, select_eq_ok_iff]

/-! All filters. -/

theorem filtered_eq (q : EventQuery) (vs : List Value) :
    filtered q vs = pass (field "level") q.level q.level vs >>= fun vs =>
      pass (field "event_type") q.kind q.kind vs >>= fun vs =>
        pass labelOf q.label (Text.upper q.label) vs := by
  unfold pass
  by_cases level : q.level = ""
  · by_cases kind : q.kind = "" <;> simp [filtered, level, kind]
  · by_cases kind : q.kind = "" <;> simp [filtered, level, kind]

theorem isTable_of_wellFormed {v : Value} (h : wellFormed v = true) : v.isTable = true := by
  cases v <;> simp_all [wellFormed, Value.isTable]

/-- The filters ask a record one after the other, each only if those in front of it admit it. -/
theorem canAsk_iff {q : EventQuery} {v : Value} :
    q.CanAsk v ↔ (q.level ≠ "" → v.isTable = true) ∧
      (q.kind ≠ "" → q.admitsLevel v = true → v.isTable = true) ∧
      (q.label ≠ "" → q.admitsLevel v = true → q.admitsKind v = true → wellFormed v = true) := by
  constructor
  · rintro ⟨table, context⟩
    exact ⟨fun h => table fun all => h all.level, fun h _ => table fun all => h all.kind, context⟩
  · rintro ⟨level, kind, context⟩
    refine ⟨fun filters => ?_, context⟩
    by_cases noLevel : q.level = ""
    · have passes : q.admitsLevel v = true := by simp [EventQuery.admitsLevel, noLevel]
      by_cases noKind : q.kind = ""
      · have passes' : q.admitsKind v = true := by simp [EventQuery.admitsKind, noKind]
        have label : q.label ≠ "" := fun noLabel => filters ⟨noLevel, noKind, noLabel⟩
        exact isTable_of_wellFormed (context label passes passes')
      · exact kind noKind passes
    · exact level noLevel

theorem canAsk_of_wellFormed {q : EventQuery} {v : Value} (h : wellFormed v = true) :
    q.CanAsk v :=
  ⟨fun _ => isTable_of_wellFormed h, fun _ _ _ => h⟩

theorem bind_eq_ok_iff {ε α β : Type} {x : Except ε α} {f : α → Except ε β} {b : β} :
    x >>= f = .ok b ↔ ∃ a, x = .ok a ∧ f a = .ok b := by
  cases x <;> simp [bind, Except.bind]

theorem filtered_eq_ok_iff {q : EventQuery} {vs found : List Value} :
    filtered q vs = .ok found ↔ (∀ v ∈ vs, q.CanAsk v) ∧ found = vs.filter q.admits := by
  simp only [filtered_eq, bind_eq_ok_iff, pass_eq_ok_iff, ok_field_iff, gives_field,
    ok_labelOf_iff, gives_labelOf, and_assoc, exists_and_left, exists_eq_left, canAsk_iff,
    List.mem_filter, List.filter_filter]
  have all : (fun v => (q.label = "" || hasLabel (Text.upper q.label) v) &&
      (q.kind = "" || hasText "event_type" q.kind v) &&
        (q.level = "" || hasText "level" q.level v)) = q.admits := by
    funext v
    rw [Bool.and_comm, Bool.and_comm (_ || hasLabel _ v), ← Bool.and_assoc]
    rfl
  rw [all]
  constructor
  · rintro ⟨level, kind, label, rfl⟩
    exact ⟨fun v hv => ⟨fun h => level h v hv, fun h p => kind h v ⟨hv, p⟩,
      fun h p p' => label h v ⟨hv, p, p'⟩⟩, rfl⟩
  · rintro ⟨asked, rfl⟩
    exact ⟨fun h v hv => (asked v hv).1 h, fun h v hv => (asked v hv.1).2.1 h hv.2,
      fun h v hv => (asked v hv.1).2.2 h hv.2.1 hv.2.2, rfl⟩

theorem select?_eq_ok_iff {q : EventQuery} {vs found : List Value} :
    select? q vs = .ok found ↔ (∀ v ∈ vs, q.CanAsk v) ∧
      found = limited (min q.limit mostRecords) (vs.filter q.admits).reverse := by
  rw [select?]
  cases result : filtered q vs with
  | ok admitted =>
    obtain ⟨asked, rfl⟩ := filtered_eq_ok_iff.mp result
    simp only [Except.map, Except.ok.injEq, eq_comm (a := found)]
    exact ⟨fun h => ⟨asked, h⟩, And.right⟩
  | error e =>
    simp only [Except.map]
    constructor
    · intro h
      cases h
    · rintro ⟨asked, -⟩
      rw [filtered_eq_ok_iff.mpr ⟨asked, rfl⟩] at result
      cases result

theorem mapError_eq_ok_iff {ε δ α : Type} {f : ε → δ} {x : Except ε α} {a : α} :
    x.mapError f = .ok a ↔ x = .ok a := by
  cases x <;> simp [Except.mapError]

theorem read_eq_ok_iff {log : EventLog} {fs : Files} {bytes : List UInt8}
    (file : fs.read log.path = .ok bytes) (seeks : canSeek log.window bytes = true)
    {q : EventQuery} {found : List Value} :
    log.read q fs = .ok found ↔ (∀ v ∈ log.recorded bytes, q.CanAsk v) ∧
      found = limited (min q.limit mostRecords)
        ((log.recorded bytes).filter q.admits).reverse := by
  have answer : log.read q fs = (select? q (log.recorded bytes)).mapError .filter := by
    simp only [EventLog.read, Files.find?_of_read file, file, seeks, if_true]
  rw [answer, mapError_eq_ok_iff, select?_eq_ok_iff]

/-! Events. -/

theorem isText_iff {s : String} {v : Value} : isText s v = true ↔ v = .text s := by
  cases v with
  | text t =>
    simp only [isText, beq_iff_eq, Value.text.injEq]
    exact eq_comm
  | _ => simp [isText]

theorem isText_sorted (s : String) (v : Value) :
    isText s (Json.sorted v) = true ↔ v = .text s := by
  rw [isText_iff]
  cases v <;> simp [Json.sorted]

theorem hasLabel_record {e : Event} (keys : Value.TextKeys e.context) (s : String) :
    hasLabel s (record e) = true ↔ Value.find? "label" e.context = some (.text s) := by
  rw [record_eq]
  simp only [hasLabel, Value.find?, Value.sameKey_text, beq_self_eq_true, if_true, Json.sorted,
    hasText, Json.find?_sorted keys]
  cases Value.find? "label" e.context with
  | none => simp
  | some v => simp [isText_sorted]

theorem admits_record {q : EventQuery} {e : Event} (keys : Value.TextKeys e.context) :
    q.admits (record e) = true ↔ q.Matches e := by
  have level : hasText "level" q.level (record e) = true ↔ q.level = e.level.name := by
    rw [record_eq]
    simp [hasText, Value.find?, Value.sameKey_text, isText]
  have kind : hasText "event_type" q.kind (record e) = true ↔ q.kind = e.kind.name := by
    rw [record_eq]
    simp [hasText, Value.find?, Value.sameKey_text, isText]
  simp only [EventQuery.admits, EventQuery.admitsLevel, EventQuery.admitsKind,
    EventQuery.admitsLabel, EventQuery.Matches, Bool.and_eq_true, Bool.or_eq_true,
    decide_eq_true_eq, level, kind, hasLabel_record keys, and_assoc]

/-- What stands behind whole lines and the line of an event does not keep it from being read. -/
theorem recorded_line {log : EventLog} {front rest : List UInt8} {line : String} {e : Event}
    {v : Value} (whole : Whole front) (written : line? e = some line) (reads : readBack? e = some v)
    (seen : ((front ++ (Text.encodeUtf8 line ++ rest)).length : Int) ≤ log.window ∨
      ((front ++ (Text.encodeUtf8 line ++ rest)).length : Int) - log.window < front.length) :
    ∃ before, log.recorded (front ++ (Text.encodeUtf8 line ++ rest)) =
      before ++ v :: records (Text.decodeUtf8 rest) := by
  obtain ⟨kept, wholeKept, tail⟩ := tail_append whole seen
  refine ⟨records (Text.decodeUtf8 kept), ?_⟩
  rw [recorded, tail, records_append wholeKept, records_line written, reads]
  rfl

theorem mem_newest {α : Type} {x : α} {before after : List α} {n : Nat} (few : after.length < n) :
    x ∈ (before ++ x :: after).reverse.take n := by
  rw [List.reverse_append, List.reverse_cons, List.append_assoc, List.singleton_append,
    List.take_append]
  apply List.mem_append_right
  obtain ⟨m, more⟩ : ∃ m, n - after.reverse.length = m + 1 := ⟨n - after.length - 1, by simp; omega⟩
  rw [more, List.take_succ_cons]
  exact List.mem_cons_self

/-- How a query for at least no records is answered from these bytes. -/
structure Answers (log : EventLog) (bytes : List UInt8) (q : EventQuery)
    (answer : Except ReadError (List Value)) : Prop where
  /-- It is answered if and only if every record in the window can be asked. -/
  answered : (∃ vs, answer = .ok vs) ↔ ∀ v ∈ log.recorded bytes, q.CanAsk v
  /-- Then the newest that the filters admit are given. -/
  newest : ∀ vs, answer = .ok vs →
    vs = ((log.recorded bytes).filter q.admits).reverse.take (min q.limit 2000).toNat
  /-- Among records all of which are well formed it is answered, and by tables only. -/
  tables : (∀ v ∈ log.recorded bytes, wellFormed v = true) →
    ∃ vs, answer = .ok vs ∧ ∀ v ∈ vs, v.isTable = true
  /-- An event on a line of its own is not lost, whatever stands on other lines. -/
  kept : ∀ vs, answer = .ok vs → ∀ front rest line e,
    bytes = front ++ (Text.encodeUtf8 line ++ rest) → Whole front → line? e = some line →
    (bytes.length : Int) ≤ log.window ∨ (bytes.length : Int) - log.window < front.length →
    ((records (Text.decodeUtf8 rest)).filter q.admits).length < (min q.limit 2000).toNat →
      (∀ v, readBack? e = some v → q.admits v = true → v ∈ vs) ∧
        (e.Plain → q.Matches e → ∃ v ∈ vs, v.Alike e.toValue)

/-- A read answers if and only if every record in the window can be asked, and then it gives what
the filters admit, newest first and as many as the limit says. An event that was written is among
it if its line lies in the window, the filters want it and the limit reaches back to it. -/
theorem read_answers {log : EventLog} {fs : Files} {bytes : List UInt8}
    (file : fs.read log.path = .ok bytes) (seeks : canSeek log.window bytes = true)
    {q : EventQuery} (limit : 0 ≤ q.limit) : log.Answers bytes q (log.read q fs) := by
  have cut : ∀ vs : List Value,
      limited (min q.limit mostRecords) vs = vs.take (min q.limit 2000).toNat := by
    intro vs
    exact limited_of_nonneg (by unfold mostRecords; omega) vs
  have newest : ∀ vs, log.read q fs = .ok vs →
      vs = ((log.recorded bytes).filter q.admits).reverse.take (min q.limit 2000).toNat := by
    intro vs answer
    rw [((read_eq_ok_iff file seeks).mp answer).2, cut]
  have kept : ∀ vs, log.read q fs = .ok vs → ∀ front rest line e,
      bytes = front ++ (Text.encodeUtf8 line ++ rest) → Whole front → line? e = some line →
      (bytes.length : Int) ≤ log.window ∨ (bytes.length : Int) - log.window < front.length →
      ((records (Text.decodeUtf8 rest)).filter q.admits).length < (min q.limit 2000).toNat →
        ∀ v, readBack? e = some v → q.admits v = true → v ∈ vs := by
    intro vs answer front rest line e split whole written seen few v reads admitted
    subst split
    obtain ⟨before, recorded⟩ := recorded_line whole written reads seen
    rw [newest vs answer, recorded, List.filter_append, List.filter_cons_of_pos admitted]
    exact mem_newest few
  refine ⟨?_, newest, ?_, ?_⟩
  · constructor
    · rintro ⟨vs, answer⟩
      exact ((read_eq_ok_iff file seeks).mp answer).1
    · intro asked
      exact ⟨_, (read_eq_ok_iff file seeks).mpr ⟨asked, rfl⟩⟩
  · intro wellFormed
    have asked : ∀ v ∈ log.recorded bytes, q.CanAsk v :=
      fun v hv => canAsk_of_wellFormed (wellFormed v hv)
    refine ⟨_, (read_eq_ok_iff file seeks).mpr ⟨asked, rfl⟩, fun v hv => ?_⟩
    rw [cut] at hv
    have mem := List.mem_reverse.mp (List.mem_of_mem_take hv)
    exact isTable_of_wellFormed (wellFormed v (List.mem_filter.mp mem).1)
  · intro vs answer front rest line e split whole written seen few
    have kept := kept vs answer front rest line e split whole written seen few
    refine ⟨kept, fun plain wanted => ?_⟩
    have there := read?_record plain (eq_of_line? written).1
    exact ⟨record e, kept _ there ((admits_record plain.textKeys).mpr wanted),
      Json.alike_sorted (Event.keyed_toValue plain.keyed)⟩

/-- The files of a log. -/
def filesOf (bytes : List UInt8) : Files :=
  ⟨[(["project"], .directory), (["project", "logs"], .directory),
    (["project", "logs", "events.ndjson"], .file bytes)]⟩

theorem read_filesOf (bytes : List UInt8) : (filesOf bytes).read sampleLog.path = .ok bytes := by
  simp [filesOf, sampleLog, path, directory, Path.child, Files.read, Files.target, Files.follow,
    Files.node?, Path.base, Path.isBase, List.lookup_cons]

def startedLine : String := String.ofList (Json.chars (record (startedEvent 3)) ++ ['\n'])

theorem startedLine_written : line? (startedEvent 3) = some startedLine :=
  line?_of_finite (finite_startedEvent 3)

theorem length_startedLine : (Text.encodeUtf8 startedLine).length = 163 := by
  have line := size_startedEvents [3] (by simp)
  simpa only [size, List.map_cons, List.map_nil, List.filterMap_cons_some startedLine_written,
    List.filterMap_nil, List.flatMap_singleton, List.length_singleton] using line

/-- The line of an event, and a line that is a number. -/
def withNumber : List UInt8 := Text.encodeUtf8 startedLine ++ [0x35, 0x0A]

theorem length_withNumber : withNumber.length = 165 := by
  rw [withNumber, List.length_append, length_startedLine]
  rfl

theorem recorded_withNumber :
    sampleLog.recorded withNumber = [record (startedEvent 3), .whole 5] := by
  have fits : (withNumber.length : Int) ≤ sampleLog.window := by
    rw [length_withNumber]
    decide
  have there : readBack? (startedEvent 3) = some (record (startedEvent 3)) :=
    read?_record (startedEvent_plain 3) (finite_startedEvent 3)
  have decoded : Text.decodeUtf8 [0x35, 0x0A] = ['5', '\n'] := by decide +kernel
  have number : records ['5', '\n'] = [.whole 5] := rfl
  rw [recorded, tail, if_pos fits, withNumber, records_line startedLine_written, there, decoded,
    number]
  rfl

theorem canSeek_withNumber : canSeek sampleLog.window withNumber = true := by
  rw [canSeek, length_withNumber]
  decide

/-- A number among the lines ends every read with a filter, and is given back by one without. -/
theorem number_breaks_filters :
    ({ level := "info" } : EventQuery).Matches (startedEvent 3) ∧
      sampleLog.read { level := "info" } (filesOf withNumber) = .error (.filter ⟨.whole 5⟩) ∧
      sampleLog.read {} (filesOf withNumber) = .ok [.whole 5, record (startedEvent 3)] := by
  have read := read_filesOf withNumber
  refine ⟨⟨.inr rfl, .inl rfl, .inl rfl⟩, ?_, ?_⟩
  · simp only [EventLog.read, Files.find?_of_read read, read, canSeek_withNumber,
      recorded_withNumber, record_startedEvent]
    rfl
  · simp only [EventLog.read, Files.find?_of_read read, read, canSeek_withNumber,
      recorded_withNumber]
    rfl

theorem read_answers_withNumber :
    (filesOf withNumber).read sampleLog.path = .ok withNumber ∧
      canSeek sampleLog.window withNumber = true ∧
      sampleLog.Answers withNumber {} (sampleLog.read {} (filesOf withNumber)) :=
  ⟨read_filesOf withNumber, canSeek_withNumber,
    read_answers (read_filesOf withNumber) canSeek_withNumber (by decide)⟩

end EventLog

end FormulaSheet
