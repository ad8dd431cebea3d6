import FormulaSheet.Journal.Log
/-!
The file behind a log. A file that is put where no directory is leaves the directories on the way to
it, so once a line can be appended to a log lines can be appended for ever, and the file holds what
it held before with the lines behind it.
-/

namespace FormulaSheet

namespace Files

variable {fs : Files}

theorem lookup_setNode (parts : List String) (node : FileNode)
    (nodes : List (List String × FileNode)) (here : List String) :
    (setNode.go parts node nodes).lookup here =
      if here = parts then some node else nodes.lookup here := by
  induction nodes with
  | nil =>
    by_cases h : here = parts <;> simp [setNode.go, h]
  | cons e rest ih =>
    obtain ⟨place, old⟩ := e
    by_cases same : place = parts
    · subst same
      by_cases h : here = place
      · simp [setNode.go, h]
      · simp [setNode.go, List.lookup_cons, beq_false_of_ne h, h]
    · rw [setNode.go, if_neg same]
      by_cases h : here = place
      · subst h
        simp [same]
      · simp [List.lookup_cons, beq_false_of_ne h, ih]

theorem isBase_of_node? {parts : List String} (h : fs.node? parts ≠ some .directory) :
    Path.isBase parts = false := by
  rw [← Bool.not_eq_true]
  intro base
  simp [node?, base] at h

theorem node?_setNode {parts : List String} (node : FileNode)
    (h : fs.node? parts ≠ some .directory) (here : List String) :
    (fs.setNode parts node).node? here = if here = parts then some node else fs.node? here := by
  have notBase := isBase_of_node? h
  by_cases base : Path.isBase here = true
  · have apart : here ≠ parts := by
      rintro rfl
      rw [notBase] at base
      cases base
    simp [node?, base, apart]
  · simp [node?, base, setNode, lookup_setNode]

/-! Following a path. -/

/-- From a directory the parts lead to a directory. -/
inductive Way (fs : Files) : List String → List String → List String → Prop
  | here (d : List String) : Way fs d [] d
  | up {d ps q : List String} (rest : Way fs (Path.above d) ps q) : Way fs d (".." :: ps) q
  | down {d ps q : List String} {part : String} (plain : part ≠ "..")
      (directory : fs.node? (d ++ [part]) = some .directory) (rest : Way fs (d ++ [part]) ps q) :
      Way fs d (part :: ps) q

theorem Way.follow_append {d ps q : List String} (way : fs.Way d ps q) (rest : List String) :
    fs.follow d (ps ++ rest) = fs.follow q rest := by
  induction way with
  | here d => rfl
  | up _ ih =>
    rw [List.cons_append, follow_up]
    exact ih
  | down plain directory _ ih =>
    rw [List.cons_append, follow_cons _ _ _ plain, directory]
    exact ih

theorem Way.leads {d ps q : List String} (way : fs.Way d ps q) :
    fs.follow d ps = .found q .directory := by
  have behind := way.follow_append []
  rwa [List.append_nil, follow_nil] at behind

/-- A path leads nowhere unless its parts but the last lead to a directory. -/
theorem follow_front (fs : Files) (d ps : List String) (name : String) :
    (∃ q, fs.Way d ps q) ∨ fs.follow d (ps ++ [name]) = .throughFile ∨
      fs.follow d (ps ++ [name]) = .noDirectory := by
  induction d, ps using follow.induct fs with
  | case1 d => exact .inl ⟨d, .here d⟩
  | case2 d rest ih =>
    rw [List.cons_append, follow_up]
    exact ih.imp_left fun ⟨q, way⟩ => ⟨q, .up way⟩
  | case3 d part plain here rest directory ih =>
    rw [List.cons_append, follow_cons _ _ _ plain, directory]
    exact ih.imp_left fun ⟨q, way⟩ => ⟨q, .down plain directory way⟩
  -- a file in front of the name bars the way, and so does a part that is missing
  | case4 d part plain here bytes file =>
    refine .inr (.inl ?_)
    rw [List.cons_append, follow_cons _ _ _ plain, file]
    rfl
  | case5 d part rest plain here bytes file =>
    refine .inr (.inl ?_)
    rw [List.cons_append, follow_cons _ _ _ plain, file]
    cases rest <;> rfl
  | case6 d part plain here missing =>
    refine .inr (.inr ?_)
    rw [List.cons_append, follow_cons _ _ _ plain, missing]
    rfl
  | case7 d part rest plain here missing =>
    refine .inr (.inr ?_)
    rw [List.cons_append, follow_cons _ _ _ plain, missing]
    cases rest <;> rfl

/-- What is put where no directory is bars no way to a directory. -/
theorem Way.setNode {parts : List String} (node : FileNode)
    (free : fs.node? parts ≠ some .directory) {d ps q : List String} (way : fs.Way d ps q) :
    (fs.setNode parts node).Way d ps q := by
  induction way with
  | here d => exact .here d
  | up _ ih => exact .up ih
  | @down d ps q part plain directory _ ih =>
    have apart : d ++ [part] ≠ parts := by
      rintro rfl
      exact free directory
    refine .down plain ?_ ih
    rw [node?_setNode node free, if_neg apart, directory]

theorem follow_name {q : List String} {name : String} (plain : name ≠ "..") :
    fs.follow q [name] =
      match fs.node? (q ++ [name]) with
      | some node => .found (q ++ [name]) node
      | none => .missing (q ++ [name]) := by
  rw [follow_cons _ _ _ plain]
  cases h : fs.node? (q ++ [name]) with
  | none => rfl
  | some node => cases node <;> rfl

end Files

namespace EventLog

variable {log : EventLog}

/-- The bytes of the log's file; none if there is no such file. -/
def contents (log : EventLog) (fs : Files) : List UInt8 :=
  match fs.target log.path with
  | .found _ (.file bytes) => bytes
  | _ => []

/-- The log can be written: its directory is there or can be made, which does nothing to its file,
and the file is there or can be made. -/
def Works (log : EventLog) (fs : Files) : Prop :=
  ∃ made parts, fs.makeDirectory log.directory = .ok made ∧
    (made.target log.path = .found parts (.file (log.contents fs)) ∨
      log.contents fs = [] ∧ made.target log.path = .missing parts)

theorem path_eq :
    log.path.base = log.directory.base ∧
      log.path.parts = log.directory.parts ++ ["events.ndjson"] :=
  ⟨rfl, rfl⟩

/-- Where the directory of the log is, its file is the entry of the directory. -/
theorem target_path {fs : Files} {q : List String}
    (way : fs.Way log.directory.base log.directory.parts q) :
    fs.target log.path =
      match fs.node? (q ++ ["events.ndjson"]) with
      | some node => .found (q ++ ["events.ndjson"]) node
      | none => .missing (q ++ ["events.ndjson"]) := by
  rw [Files.target, path_eq.1, path_eq.2, way.follow_append, Files.follow_name (by decide)]

theorem exists_directory {fs : Files} {parts : List String}
    (h : (∃ node, fs.target log.path = .found parts node) ∨ fs.target log.path = .missing parts) :
    ∃ q, fs.Way log.directory.base log.directory.parts q := by
  rw [Files.target, path_eq.1, path_eq.2] at h
  rcases fs.follow_front log.directory.base log.directory.parts "events.ndjson" with
    found | through | missing
  · exact found
  · simp [through] at h
  · simp [missing] at h

theorem makeDirectory_of_found {fs : Files} {q : List String}
    (way : fs.Way log.directory.base log.directory.parts q) :
    fs.makeDirectory log.directory = .ok fs := by
  have target : fs.target log.directory = .found q .directory := way.leads
  simp [Files.makeDirectory, target]

theorem contents_of_target {fs : Files} {parts : List String} {bytes : List UInt8}
    (h : fs.target log.path = .found parts (.file bytes)) : log.contents fs = bytes := by
  simp [contents, h]

/-- What stands at the end of the way to a log that works is its file, or nothing. -/
theorem append_of_place {made : Files} {parts q : List String} {old : List UInt8}
    (way : made.Way log.directory.base log.directory.parts q)
    (place : made.target log.path = .found parts (.file old) ∨
      old = [] ∧ made.target log.path = .missing parts) (bytes : List UInt8) :
    parts = q ++ ["events.ndjson"] ∧ made.node? parts ≠ some .directory ∧
      made.append log.path bytes = .ok (made.setNode parts (.file (old ++ bytes))) := by
  rw [target_path way] at place
  unfold Files.append
  rw [target_path way]
  cases node : made.node? (q ++ ["events.ndjson"]) with
  | none =>
    simp only [node] at place
    rcases place with found | ⟨empty, missing⟩
    · cases found
    · cases missing
      simp [node, empty]
  | some there =>
    simp only [node] at place
    rcases place with found | ⟨_, missing⟩
    · cases found
      simp [node]
    · cases missing

/-- Appending to a log that works leaves its file with the bytes behind what it held, and a log that
works. -/
theorem Works.append {fs : Files} (h : log.Works fs) (bytes : List UInt8) :
    ∃ fs', (fs.makeDirectory log.directory).bind (·.append log.path bytes) = .ok fs' ∧
      log.contents fs' = log.contents fs ++ bytes ∧ log.Works fs' ∧
      fs'.read log.path = .ok (log.contents fs ++ bytes) := by
  obtain ⟨made, parts, directory, place⟩ := h
  have there : (∃ node, made.target log.path = .found parts node) ∨
      made.target log.path = .missing parts := by
    rcases place with found | ⟨_, missing⟩
    · exact .inl ⟨_, found⟩
    · exact .inr missing
  obtain ⟨q, way⟩ := exists_directory there
  obtain ⟨rfl, free, appended⟩ := append_of_place way place bytes
  have wayStill := way.setNode (.file (log.contents fs ++ bytes)) free
  have target : (made.setNode (q ++ ["events.ndjson"])
      (.file (log.contents fs ++ bytes))).target log.path =
        .found (q ++ ["events.ndjson"]) (.file (log.contents fs ++ bytes)) := by
    rw [target_path wayStill, Files.node?_setNode _ free, if_pos rfl]
  have contents := contents_of_target target
  refine ⟨_, by rw [directory]; exact appended, contents, ?_, ?_⟩
  · exact ⟨_, _, makeDirectory_of_found wayStill, .inl (by rw [contents]; exact target)⟩
  · simp [Files.read, target]

/-- An event with a line is written to a log that works, and its line is all that is written. -/
theorem Works.write {fs : Files} (h : log.Works fs) {e : Event} {line : String}
    (written : line? e = some line) :
    ∃ fs', log.write e fs = .ok fs' ∧
      log.contents fs' = log.contents fs ++ Text.encodeUtf8 line ∧ log.Works fs' ∧
      fs'.read log.path = .ok (log.contents fs') := by
  obtain ⟨fs', appended, contents, works, read⟩ := h.append (Text.encodeUtf8 line)
  refine ⟨fs', ?_, contents, works, contents ▸ read⟩
  simp only [EventLog.write, written, appended]

/-- A log in a directory that need not be there. -/
def sampleLog : EventLog := ⟨⟨false, ["project"]⟩, false, 4096⟩

theorem sampleLog_contents : sampleLog.contents {} = [] := by
  simp [sampleLog, contents, path, directory, Path.child, Files.target, Files.follow, Files.node?,
    Path.base, Path.isBase]

theorem sampleLog_works : sampleLog.Works {} := by
  refine ⟨⟨[(["project"], .directory), (["project", "logs"], .directory)]⟩,
    ["project", "logs", "events.ndjson"], ?_, .inr ⟨sampleLog_contents, ?_⟩⟩
  · simp [sampleLog, directory, Path.child, Files.makeDirectory, Files.target, Files.follow,
      Files.node?, Files.makeAlong, Files.setNode, Files.setNode.go, Path.base, Path.isBase,
      Path.plain]
  · simp [sampleLog, path, directory, Path.child, Files.target, Files.follow, Files.node?,
      Path.base, Path.isBase, List.lookup_cons]

end EventLog

namespace Journal

/-- The lines of notices that are noted at one time. -/
def lines (time : String) (ns : List Notice) : List (Option String) :=
  ns.map fun n => EventLog.line? (n.at time)

/-- Notices that have lines are all noted, in their order, by a journal whose log works. -/
theorem noteAll_contents {j : Journal} {log : EventLog} (logged : j.log = some log)
    (works : log.Works j.files) {ns : List Notice} {written : List String}
    (h : lines j.time ns = written.map some) :
    (j.noteAll ns).log = some log ∧ (j.noteAll ns).time = j.time ∧
      log.Works (j.noteAll ns).files ∧
      log.contents (j.noteAll ns).files =
        log.contents j.files ++ written.flatMap Text.encodeUtf8 := by
  induction ns generalizing j written with
  | nil =>
    cases written with
    | nil => exact ⟨logged, rfl, works, by simp [noteAll]⟩
    | cons line rest => cases h
  | cons n rest ih =>
    cases written with
    | nil => cases h
    | cons line lines =>
      obtain ⟨first, others⟩ := List.cons.inj h
      obtain ⟨fs', write, contents, still, _⟩ := works.write first
      have noted : j.note n = { j with files := fs' } := by
        simp [note, emit, logged, write]
      have logged' : (j.note n).log = some log := by rw [noted]; exact logged
      have works' : log.Works (j.note n).files := by rw [noted]; exact still
      have others' : Journal.lines (j.note n).time rest = lines.map some := by
        rw [noted]
        exact others
      have done := ih logged' works' others'
      rw [noted] at done
      simp only [noteAll, List.foldl_cons, noted] at done ⊢
      simpa [contents] using done

end Journal

end FormulaSheet
