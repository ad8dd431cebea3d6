import FormulaSheet.Proofs.Journal.Transcript
/-!
Calculation does not depend on where notices go. Here an operation hands each notice to a sink where
it comes up: behind each cell of a pass, and before text that cannot be read is refused. A sink can
be anything. Writing to it may change it and may fail, and a failure is caught where the notice is
emitted. Then every operation answers, raises and leaves the sheet as the calculation says that does
nothing but collect notices, and the sink has been given these notices, in order, behind whatever
failed. A journal is such a sink, with or without a log that can be written.
-/

namespace FormulaSheet

/-- What can be raised while a sheet is calculated. -/
inductive Raised
  | formula (e : FormulaError)
  | sink (message : String)

/-- Where notices go. A write leaves the sink in some state, whether it fails or not. -/
structure Sink (σ : Type) where
  write : Notice → σ → Except String Unit × σ

/-- A calculation under way, with the sheet and the sink as they are at the moment. -/
abbrev Live (σ : Type) := ExceptT Raised (StateM (Sheet × σ))

namespace Live

variable {σ : Type}

def sheet : Live σ Sheet := return (← get).1

def keep (s : Sheet) : Live σ Unit := modify fun state => (s, state.2)

/-- The slot of the cell of a label. -/
def locate (label : String) : Live σ Nat := do
  match (← sheet).locate label with
  | .error e => throw (.formula (.reference e))
  | .ok (slot, s) =>
    keep s
    return slot

end Live

namespace Sink

open Live

variable {σ : Type} (k : Sink σ)

/-- Writes a notice; a failure is raised. -/
def put (n : Notice) : Live σ Unit := ExceptT.mk do
  let (s, z) ← get
  let (result, z) := k.write n z
  set (s, z)
  return result.mapError .sink

/-- Writes a notice; a failure is caught. -/
def emit (n : Notice) : Live σ Unit := tryCatch (k.put n) fun _ => return

def evaluateSlot (slot : Nat) : Live σ Outcome := do
  let s ← sheet
  let cell := s.cellAt slot
  let found := s.evaluate Label.isLabel cell.formula
  keep (found.2.modify slot (·.setOutcome found.1))
  k.emit (.ofOutcome cell.label cell.formula found.1)
  return found.1

def evaluateCell (label : String) : Live σ Outcome := do
  let slot ← locate label
  k.evaluateSlot slot

def evaluateAll : List String → Live σ (List (String × Outcome))
  | [] => return []
  | label :: rest => do
    let outcome ← k.evaluateCell label
    let others ← evaluateAll rest
    return (label, outcome) :: others

def recalculate : Live σ (List (String × Outcome)) := do
  let order := (← sheet).evaluationOrder
  k.emit (.started order.length)
  let results ← k.evaluateAll order
  k.emit (.completed results.length (results.filter fun r => !r.2.isOk).length)
  return results

/-- The tokens of a formula for the cell of a slot. Text that cannot be read is noted before it is
refused. -/
def tokens (slot : Nat) : FormulaInput → Live σ (List Token)
  | .tokens ts => return ts
  | .text text =>
    match tokenize text with
    | .ok ts => return ts
    | .error failure => do
      let cell := (← sheet).cellAt slot
      k.emit (.rejected cell.label text (.unreadable failure))
      throw (.formula (.unreadable failure))

def storeFormula (slot : Nat) (ts : List Token) : Live σ Outcome := do
  keep ((← sheet).modify slot (·.setFormula ts))
  let _ ← k.recalculate
  return ((← sheet).cellAt slot).outcome

def setFormula (label : String) (input : FormulaInput) : Live σ Outcome := do
  let slot ← locate label
  let ts ← k.tokens slot input
  k.storeFormula slot ts

def act : Action → Live σ Reply
  | .setFormula label input => return .outcome (← k.setFormula label input)
  | .evaluateCell label => return .outcome (← k.evaluateCell label)
  | .recalculate => return .pass (← k.recalculate)

/-- Does actions one after the other. What one of them raises is its answer. -/
def run (s : Sheet) (z : σ) : List Action → List (Except Raised Reply) × Sheet × σ
  | [] => ([], s, z)
  | a :: rest =>
    let (answer, s, z) := (k.act a).run.run (s, z)
    let (answers, s, z) := run s z rest
    (answer :: answers, s, z)

/-- The sink behind notices, whether it took them or not. -/
def after (ns : List Notice) (z : σ) : σ := ns.foldl (fun z n => (k.write n z).2) z

/-- From the sheet a calculation leads to the value and the sheet, and the notices go to the sink in
between, whatever comes of them. -/
def Does {α : Type} (s : Sheet) (x : Live σ α) (value : Except FormulaError α) (t : Sheet)
    (ns : List Notice) : Prop :=
  ∀ z, x.run.run (s, z) = (value.mapError .formula, t, k.after ns z)

variable {k} {α β : Type} {s t u : Sheet} {ns ms : List Notice}

theorem Does.pure (s : Sheet) (a : α) : k.Does s (pure a) (.ok a) s [] := fun _ => rfl

theorem Does.raise (s : Sheet) (e : FormulaError) :
    k.Does s (throw (.formula e) : Live σ α) (.error e) s [] := fun _ => rfl

theorem Does.emit (s : Sheet) (n : Notice) : k.Does s (k.emit n) (.ok ()) s [n] := by
  intro z
  have put : StateT.run (k.put n) (s, z) =
      ((k.write n z).1.mapError .sink, s, (k.write n z).2) := rfl
  simp only [Sink.emit, tryCatch, tryCatchThe, MonadExceptOf.tryCatch, ExceptT.tryCatch,
    ExceptT.run_mk, StateT.run_bind, put]
  cases (k.write n z).1 <;> rfl

theorem after_append (ns ms : List Notice) (z : σ) :
    k.after (ns ++ ms) z = k.after ms (k.after ns z) := List.foldl_append

theorem Does.bind {x : Live σ α} {f : α → Live σ β} {a : α} {value : Except FormulaError β}
    (first : k.Does s x (.ok a) t ns) (next : k.Does t (f a) value u ms) :
    k.Does s (x >>= f) value u (ns ++ ms) := by
  intro z
  have done := first z
  have done' := next (k.after ns z)
  rw [after_append]
  simp only [ExceptT.run_bind, StateT.run_bind, done, Except.mapError]
  exact done'

theorem Does.stop {x : Live σ α} {f : α → Live σ β} {e : FormulaError}
    (first : k.Does s x (.error e) t ns) : k.Does s (x >>= f) (.error e) t ns := by
  intro z
  have done := first z
  simp only [ExceptT.run_bind, StateT.run_bind, done, Except.mapError]
  rfl

/-- What comes behind tells nothing. -/
theorem Does.silent {x : Live σ α} {f : α → Live σ β} {a : α} {value : Except FormulaError β}
    (first : k.Does s x (.ok a) t ns) (next : k.Does t (f a) value u []) :
    k.Does s (x >>= f) value u ns := by
  have whole := first.bind next
  rwa [List.append_nil] at whole

theorem Does.read {f : Sheet → Live σ α} {value : Except FormulaError α}
    (next : k.Does s (f s) value u ms) : k.Does s (sheet >>= f) value u ms := by
  have read : k.Does s sheet (.ok s) s [] := fun _ => rfl
  exact read.bind next

theorem Does.keep {x : Live σ α} {value : Except FormulaError α} (next : k.Does t x value u ms) :
    k.Does s (Live.keep t >>= fun _ => x) value u ms := by
  have kept : k.Does s (Live.keep t) (.ok ()) t [] := fun _ => rfl
  exact kept.bind next

theorem Does.note {x : Live σ α} {value : Except FormulaError α} {n : Notice}
    (next : k.Does s x value u ms) : k.Does s (k.emit n >>= fun _ => x) value u (n :: ms) :=
  (Does.emit s n).bind next

/-! Operations. -/

variable (k)

theorem does_evaluateSlot (s : Sheet) (slot : Nat) :
    k.Does s (k.evaluateSlot slot) (.ok (s.evaluateSlot slot).value) (s.evaluateSlot slot).sheet
      (s.evaluateSlot slot).notices :=
  .read (.keep (.note (.pure _ _)))

theorem does_locate_error {s : Sheet} {label : String} {e : ReferenceError}
    (found : s.locate label = .error e) :
    k.Does s (locate label) (.error (.reference e)) s [] := by
  refine .read ?_
  rw [found]
  exact Does.raise s _

theorem does_locate {s : Sheet} {label : String} {slot : Nat} {t : Sheet}
    (found : s.locate label = .ok (slot, t)) : k.Does s (locate label) (.ok slot) t [] := by
  refine .read ?_
  rw [found]
  exact .keep (.pure t slot)

theorem does_evaluateCell_error {s : Sheet} {label : String} {e : ReferenceError}
    (refused : s.evaluateCell label = .error e) :
    k.Does s (k.evaluateCell label) (.error (.reference e)) s [] := by
  cases found : s.locate label with
  | error e' =>
    simp only [Sheet.evaluateCell, found, Except.map] at refused
    cases refused
    exact (does_locate_error k found).stop
  | ok place =>
    simp only [Sheet.evaluateCell, found, Except.map] at refused
    cases refused

theorem does_evaluateCell {s : Sheet} {label : String} {done : Calculated Outcome}
    (evaluated : s.evaluateCell label = .ok done) :
    k.Does s (k.evaluateCell label) (.ok done.value) done.sheet done.notices := by
  cases found : s.locate label with
  | error e =>
    simp only [Sheet.evaluateCell, found, Except.map] at evaluated
    cases evaluated
  | ok place =>
    simp only [Sheet.evaluateCell, found, Except.map] at evaluated
    cases evaluated
    exact (does_locate k found).bind (does_evaluateSlot k place.2 place.1)

theorem does_evaluateAll (s : Sheet) (labels : List String) :
    k.Does s (k.evaluateAll labels) ((s.evaluateAll labels).value.mapError .reference)
      (s.evaluateAll labels).sheet (s.evaluateAll labels).notices := by
  induction labels generalizing s with
  | nil => exact Does.pure s []
  | cons label rest ih =>
    cases cell : s.evaluateCell label with
    | error e =>
      simp only [Sheet.evaluateAll, Sheet.passOn, cell]
      exact (does_evaluateCell_error k cell).stop
    | ok first =>
      have others := ih first.sheet
      simp only [Sheet.evaluateAll, Sheet.passOn, cell]
      refine (does_evaluateCell k cell).bind ?_
      cases value : (first.sheet.evaluateAll rest).value with
      | error e =>
        rw [value] at others
        exact others.stop
      | ok results =>
        rw [value] at others
        exact others.silent (.pure _ _)

theorem does_recalculate (s : Sheet) :
    k.Does s k.recalculate (s.recalculate.value.mapError .reference) s.recalculate.sheet
      s.recalculate.notices := by
  have pass := does_evaluateAll k s s.evaluationOrder
  refine .read (.note ?_)
  simp only [Sheet.recalculate]
  cases value : (s.evaluateAll s.evaluationOrder).value with
  | error e =>
    rw [value] at pass
    simp only [Sheet.passClosing, List.append_nil]
    exact pass.stop
  | ok results =>
    rw [value] at pass
    exact pass.bind (.note (.pure _ results))

theorem does_storeFormula (s : Sheet) (slot : Nat) (ts : List Token) :
    k.Does s (k.storeFormula slot ts) (s.storeFormula slot ts).value (s.storeFormula slot ts).sheet
      (s.storeFormula slot ts).notices := by
  have pass := does_recalculate k (s.modify slot (·.setFormula ts))
  refine .read (.keep ?_)
  simp only [Sheet.storeFormula]
  cases value : (s.modify slot (·.setFormula ts)).recalculate.value with
  | error e =>
    rw [value] at pass
    exact pass.stop
  | ok results =>
    rw [value] at pass
    exact pass.silent (.read (.pure _ _))

theorem does_tokens_text (s : Sheet) (slot : Nat) (text : String) :
    k.Does s (k.tokens slot (.text text)) ((tokenize text).mapError .unreadable) s
      (match tokenize text with
        | .ok _ => []
        | .error failure => [.rejected (s.cellAt slot).label text (.unreadable failure)]) := by
  cases readable : tokenize text with
  | ok ts =>
    simp only [Sink.tokens, readable]
    exact .pure s ts
  | error failure =>
    simp only [Sink.tokens, readable]
    exact .read (.note (.raise s _))

theorem does_setFormula (s : Sheet) (label : String) (input : FormulaInput) :
    k.Does s (k.setFormula label input) (s.setFormula label input).value
      (s.setFormula label input).sheet (s.setFormula label input).notices := by
  cases found : s.locate label with
  | error e =>
    rw [Sheet.setFormula_of_misplaced found]
    exact (does_locate_error k found).stop
  | ok place =>
    obtain ⟨slot, t⟩ := place
    have stored := does_storeFormula k t slot
    have located := does_locate k found
    cases input with
    | tokens ts =>
      rw [Sheet.setFormula_of_read found rfl]
      exact located.bind ((Does.pure t ts).bind (stored ts))
    | text text =>
      have read := does_tokens_text k t slot text
      cases readable : tokenize text with
      | ok ts =>
        rw [readable] at read
        have entered : FormulaInput.read (.text text) = .ok ts := readable
        rw [Sheet.setFormula_of_read found entered]
        exact located.bind (read.bind (stored ts))
      | error failure =>
        rw [readable] at read
        rw [Sheet.setFormula_of_failure found readable]
        exact located.bind read.stop

end Sink

/-- A reply as an answer or an error that is raised. -/
def Reply.raised : Reply → Except FormulaError Reply
  | .refused e => .error e
  | r => .ok r

def Reply.answer (r : Reply) : Except Raised Reply := r.raised.mapError .formula

theorem Reply.answer_ne_sink (r : Reply) (message : String) :
    r.answer ≠ .error (.sink message) := by
  cases r <;> simp [answer, raised, Except.mapError]

/-- Actions in turn, with all replies and all notices. -/
def Sheet.actAll (s : Sheet) : List Action → Calculated (List Reply)
  | [] => ⟨[], s, []⟩
  | a :: rest =>
    let first := s.act a
    let others := first.sheet.actAll rest
    ⟨first.value :: others.value, others.sheet, first.notices ++ others.notices⟩

theorem Workspace.run_eq (w : Workspace) (actions : List Action) :
    w.run actions = ((w.sheet.actAll actions).value, w.after (w.sheet.actAll actions)) := by
  induction actions generalizing w with
  | nil => rfl
  | cons a rest ih =>
    have others := ih (w.act a).2
    simp only [Workspace.run, others]
    simp only [Workspace.act, Workspace.after, Sheet.actAll, Journal.noteAll, List.foldl_append]

namespace Sink

variable {σ : Type} (k : Sink σ)

theorem does_act (s : Sheet) (a : Action) :
    k.Does s (k.act a) (s.act a).value.raised (s.act a).sheet (s.act a).notices := by
  cases a with
  | setFormula label input =>
    have done := does_setFormula k s label input
    simp only [Sheet.act_setFormula, Calculated.map]
    cases value : (s.setFormula label input).value with
    | error e =>
      rw [value] at done
      exact done.stop
    | ok outcome =>
      rw [value] at done
      exact done.silent (.pure _ _)
  | evaluateCell label =>
    cases cell : s.evaluateCell label with
    | error e =>
      rw [Sheet.act_evaluateCell_error cell]
      exact (does_evaluateCell_error k cell).stop
    | ok done =>
      rw [Sheet.act_evaluateCell cell]
      exact (does_evaluateCell k cell).silent (.pure _ _)
  | recalculate =>
    have done := does_recalculate k s
    simp only [Sheet.act_recalculate, Calculated.map]
    cases value : s.recalculate.value with
    | error e =>
      rw [value] at done
      exact done.stop
    | ok results =>
      rw [value] at done
      exact done.silent (.pure _ _)

/-- What a run answers and leaves, whatever the sink does with the notices. -/
theorem run_eq (s : Sheet) (z : σ) (actions : List Action) :
    k.run s z actions = ((s.actAll actions).value.map Reply.answer, (s.actAll actions).sheet,
      k.after (s.actAll actions).notices z) := by
  induction actions generalizing s z with
  | nil => rfl
  | cons a rest ih =>
    have first := does_act k s a z
    simp only [Sink.run, first, ih, Sheet.actAll, after_append]
    rfl

end Sink

namespace Journal

/-- A journal as a sink. Without a log nothing is written. -/
def sink : Sink Journal where
  write n j :=
    match j.log with
    | none => (.ok (), j)
    | some log =>
      match log.write (n.at j.time) j.files with
      | .ok files => (.ok (), { j with files })
      | .error e => (.error e.message, j)

theorem after_sink (ns : List Notice) (j : Journal) : sink.after ns j = j.noteAll ns := by
  have one : ∀ (j : Journal) (n : Notice), (sink.write n j).2 = j.note n := by
    intro j n
    cases hl : j.log with
    | none => simp only [sink, note, emit, hl]
    | some log =>
      cases hw : log.write (n.at j.time) j.files <;> simp only [sink, note, emit, hl, hw]
  simp only [Sink.after, noteAll, one]

/-- There is no log, or its directory is a file. -/
inductive Mute (j : Journal) : Prop
  | noLog (h : j.log = none)
  | blocked {log : EventLog} {parts : List String} {bytes : List UInt8} (logged : j.log = some log)
      (inTheWay : j.files.target log.directory = .found parts (.file bytes))

theorem write_of_blocked {log : EventLog} {fs : Files} {parts : List String} {bytes : List UInt8}
    (inTheWay : fs.target log.directory = .found parts (.file bytes)) (e : Event) :
    ∃ failure, log.write e fs = .error failure := by
  unfold EventLog.write
  cases EventLog.line? e with
  | none => exact ⟨_, rfl⟩
  | some line =>
    have refused : fs.makeDirectory log.directory = .error (.alreadyExists log.directory) := by
      simp only [Files.makeDirectory, inTheWay]
    simp only [refused]
    exact ⟨_, rfl⟩

theorem Mute.note {j : Journal} (h : j.Mute) (n : Notice) : j.note n = j := by
  cases h with
  | noLog none => simp only [Journal.note, emit, none]
  | blocked logged inTheWay =>
    obtain ⟨failure, fails⟩ := write_of_blocked inTheWay (n.at j.time)
    simp only [Journal.note, emit, logged, fails]

theorem Mute.noteAll {j : Journal} (h : j.Mute) (ns : List Notice) : j.noteAll ns = j := by
  induction ns with
  | nil => rfl
  | cons n rest ih =>
    simp only [Journal.noteAll, List.foldl_cons, h.note n]
    exact ih

end Journal

/-- Two runs of the same actions on the same sheet answer the same, raise the same, and leave the
same sheet and evaluation order behind every action, whatever their sinks are, do and hold. They do
what a workspace does with any journal, also with one that is mute, and a sink that is a journal
takes what the journal of the workspace takes. -/
theorem calculation_ignores_sinks {σ τ : Type} (k : Sink σ) (l : Sink τ) (s : Sheet)
    (actions : List Action) (z : σ) (z' : τ) (j : Journal) :
    (k.run s z actions).1 = (l.run s z' actions).1 ∧
      (∀ n, (k.run s z (actions.take n)).2.1 = (l.run s z' (actions.take n)).2.1 ∧
        (k.run s z (actions.take n)).2.1.evaluationOrder =
          (l.run s z' (actions.take n)).2.1.evaluationOrder) ∧
      (∀ answer ∈ (k.run s z actions).1, ∀ message, answer ≠ .error (.sink message)) ∧
      ((Workspace.mk s j).run actions).1.map Reply.answer = (k.run s z actions).1 ∧
      ((Workspace.mk s j).run actions).2.sheet = (k.run s z actions).2.1 ∧
      (j.Mute → ((Workspace.mk s j).run actions).2.journal = j) ∧
      Journal.sink.run s j actions = (((Workspace.mk s j).run actions).1.map Reply.answer,
        ((Workspace.mk s j).run actions).2.sheet, ((Workspace.mk s j).run actions).2.journal) := by
  have same : ∀ n, (k.run s z (actions.take n)).2.1 = (l.run s z' (actions.take n)).2.1 := by
    intro n
    simp only [Sink.run_eq]
  refine ⟨?_, fun n => ⟨same n, congrArg Sheet.evaluationOrder (same n)⟩, ?_, ?_, ?_, ?_, ?_⟩
  · simp only [Sink.run_eq]
  · intro answer mem message
    simp only [Sink.run_eq, List.mem_map] at mem
    obtain ⟨r, _, rfl⟩ := mem
    exact r.answer_ne_sink message
  · simp only [Sink.run_eq, Workspace.run_eq]
  · simp only [Sink.run_eq, Workspace.run_eq, Workspace.after]
  · intro mute
    simp only [Workspace.run_eq, Workspace.after, mute.noteAll]
  · simp only [Sink.run_eq, Workspace.run_eq, Workspace.after, Journal.after_sink]

end FormulaSheet
