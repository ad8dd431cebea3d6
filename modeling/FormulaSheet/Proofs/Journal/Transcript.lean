import FormulaSheet.Proofs.Journal.Notices
import FormulaSheet.Proofs.Journal.Storage
import FormulaSheet.Workspace
/-!
The log as a transcript. Whatever is done to a sheet whose cells are stored under their own labels,
a log that works gets the notices of each action behind those of the action before: those of a pass
for a recalculation and for a formula that is entered, one for a cell that is evaluated and for a
text that cannot be read, and none where the label is no cell of the sheet. No notice is lost, since
each of them has a line.
-/

namespace FormulaSheet

namespace Notice

theorem Rejects.finite {n : Notice} {label text : String} (h : n.Rejects label text) :
    n.Finite := by
  simp [Finite, h.context, Json.finiteEntries, Json.isFinite]

theorem Finite.line? {n : Notice} (h : n.Finite) (time : String) :
    ∃ line, EventLog.line? (n.at time) = some line := by
  have record : Json.isFinite (n.at time).toValue = true := by
    cases hc : n.errorCode <;>
      simp_all [Finite, Event.toValue, Notice.at, optionalText, Json.isFinite, Json.finiteEntries]
  exact ⟨_, if_pos record⟩

end Notice

/-- What an action on a sheet answers, the sheet that it leaves, and the notices of it. -/
inductive Told (s : Sheet) : Action → Reply → Sheet → List Notice → Prop
  | recalculated {t : Sheet} {results : List (String × Outcome)} {ns : List Notice}
      (pass : s.PassNotices t results ns) : Told s .recalculate (.pass results) t ns
  | entered {label k : String} {input : FormulaInput} {tokens : List Token} {u t : Sheet}
      {results : List (String × Outcome)} {ns : List Notice} {o : Outcome}
      (inside : s.key label = .ok k) (readable : input.read = .ok tokens)
      (stored : Sheet.Stored k tokens s u) (pass : u.PassNotices t results ns)
      (shows : (t.cell? k).map Cell.outcome = some o) :
      Told s (.setFormula label input) (.outcome o) t ns
  | rejected {label k : String} {input : FormulaInput} {text : String} {failure : LexFailure}
      {t : Sheet} {n : Notice} (inside : s.key label = .ok k) (entry : input = .text text)
      (unreadable : input.read = .error failure) (grows : Sheet.Grows s t)
      (rejects : n.Rejects k text) :
      Told s (.setFormula label input) (.refused (.unreadable failure)) t [n]
  | evaluated {label k : String} {t : Sheet} {n : Notice} {o : Outcome}
      (inside : s.key label = .ok k) (shows : (t.cell? k).map Cell.outcome = some o)
      (tells : n.Tells k (s.formula k) o) :
      Told s (.evaluateCell label) (.outcome o) t [n]
  | misplacedFormula {label : String} {input : FormulaInput} {e : ReferenceError}
      (outside : s.key label = .error e) :
      Told s (.setFormula label input) (.refused (.reference e)) s []
  | misplacedCell {label : String} {e : ReferenceError} (outside : s.key label = .error e) :
      Told s (.evaluateCell label) (.refused (.reference e)) s []

/-- Actions in turn, with their answers, the sheet behind the last one, and all their notices. -/
inductive Transcript : Sheet → List Action → List Reply → Sheet → List Notice → Prop
  | nil (s : Sheet) : Transcript s [] [] s []
  | cons {s t u : Sheet} {a : Action} {r : Reply} {ns more : List Notice} {actions : List Action}
      {replies : List Reply} (first : Told s a r t ns)
      (rest : Transcript t actions replies u more) :
      Transcript s (a :: actions) (r :: replies) u (ns ++ more)

namespace Sheet

/-! One equation for each action. -/

theorem act_recalculate (s : Sheet) : s.act .recalculate = s.recalculate.map Reply.ofPass := rfl

theorem act_setFormula (s : Sheet) (label : String) (input : FormulaInput) :
    s.act (.setFormula label input) = (s.setFormula label input).map Reply.ofResult := rfl

theorem act_evaluateCell {s : Sheet} {label : String} {done : Calculated Outcome}
    (h : s.evaluateCell label = .ok done) :
    s.act (.evaluateCell label) = done.map .outcome := by
  unfold act
  dsimp only
  rw [h]

theorem act_evaluateCell_error {s : Sheet} {label : String} {e : ReferenceError}
    (h : s.evaluateCell label = .error e) :
    s.act (.evaluateCell label) = ⟨.refused (.reference e), s, []⟩ := by
  unfold act
  dsimp only
  rw [h]

theorem setFormula_of_misplaced {s : Sheet} {label : String} {e : ReferenceError}
    (h : s.locate label = .error e) (input : FormulaInput) :
    s.setFormula label input = ⟨.error (.reference e), s, []⟩ := by
  unfold setFormula
  rw [h]

theorem setFormula_of_failure {s t : Sheet} {label text : String} {slot : Nat}
    {failure : LexFailure} (h : s.locate label = .ok (slot, t))
    (unreadable : tokenize text = .error failure) :
    s.setFormula label (.text text) = ⟨.error (.unreadable failure), t,
      [.rejected (t.cellAt slot).label text (.unreadable failure)]⟩ := by
  unfold setFormula
  rw [h]
  dsimp only
  rw [unreadable]

/-- The notices of an action, and that each of them can be written. -/
structure Noted (s : Sheet) (a : Action) : Prop where
  told : Told s a (s.act a).value (s.act a).sheet (s.act a).notices
  finite : ∀ n ∈ (s.act a).notices, n.Finite
  own : (s.act a).sheet.SelfLabelled

section Actions

variable {s : Sheet} (own : s.SelfLabelled)
include own

theorem recalculate_noted : s.Noted .recalculate := by
  obtain ⟨results, told, notices⟩ := recalculate_notices own
  refine ⟨?_, notices.finite, (recalculate_passed own).own⟩
  simp only [act_recalculate, Calculated.map, told, Reply.ofPass]
  exact .recalculated notices

theorem evaluateCell_noted (label : String) : s.Noted (.evaluateCell label) := by
  cases hk : s.key label with
  | error e =>
    have undone : s.act (.evaluateCell label) = ⟨.refused (.reference e), s, []⟩ :=
      act_evaluateCell_error (by simp [evaluateCell, locate_eq_error_iff.mpr hk, Except.map])
    constructor <;> simp [undone, own, Told.misplacedCell hk]
  | ok k =>
    obtain ⟨slot, t, found, located⟩ := exists_locate hk
    have done : s.act (.evaluateCell label) = (t.evaluateSlot slot).map .outcome :=
      act_evaluateCell (by simp [evaluateCell, found, Except.map])
    have ownThere := located.grows.selfLabelled own
    obtain ⟨_, cell, passed⟩ := evaluateSlot_passed ownThere located.slot
    have notices := evaluateSlot_notices ownThere located.slot
    have formula : t.formula k = s.formula k := (located.grows.cells k).formula
    rw [formula] at notices
    refine ⟨?_, ?_, ?_⟩
    · simp only [done, Calculated.map, notices]
      exact .evaluated hk (by rw [cell]; rfl) (Notice.tells_ofOutcome _ _ _)
    · simp only [done, Calculated.map, notices, List.mem_singleton]
      rintro n rfl
      exact Notice.finite_ofOutcome _ _ _
    · rw [done]
      exact passed.own

theorem storeFormula_noted {label k : String} {input : FormulaInput} {tokens : List Token}
    {slot : Nat} {t : Sheet} (hk : s.key label = .ok k) (located : Located s k slot t)
    (readable : input.read = .ok tokens)
    (done : s.setFormula label input = t.storeFormula slot tokens) :
    s.Noted (.setFormula label input) := by
  have stored := stored_modify own located tokens
  obtain ⟨results, told, notices⟩ := recalculate_notices stored.own
  obtain ⟨o, value, shows⟩ := storeFormula_shows own located tokens
  have act : s.act (.setFormula label input) =
      (t.storeFormula slot tokens).map Reply.ofResult := by
    rw [act_setFormula, done]
  refine ⟨?_, ?_, ?_⟩
  · rw [act]
    simp only [Calculated.map, value, Reply.ofResult]
    exact .entered hk readable stored notices shows
  · rw [act]
    exact notices.finite
  · rw [act]
    exact stored.recalculate.own

theorem setFormula_noted (label : String) (input : FormulaInput) :
    s.Noted (.setFormula label input) := by
  cases hk : s.key label with
  | error e =>
    have undone : s.act (.setFormula label input) = ⟨.refused (.reference e), s, []⟩ := by
      rw [act_setFormula, setFormula_of_misplaced (locate_eq_error_iff.mpr hk)]
      rfl
    constructor <;> simp [undone, own, Told.misplacedFormula hk]
  | ok k =>
    obtain ⟨slot, t, found, located⟩ := exists_locate hk
    cases read : input.read with
    | ok tokens =>
      exact storeFormula_noted own hk located read (setFormula_of_read found read)
    | error failure =>
      cases input with
      | tokens ts => cases read
      | text text =>
        have ownThere := located.grows.selfLabelled own
        have cell : (t.cellAt slot).label = k :=
          ownThere k _ (cell?_eq_some_iff.mpr ⟨slot, located.slot, rfl⟩)
        have refused : s.act (.setFormula label (.text text)) =
            ⟨.refused (.unreadable failure), t, [.rejected k text (.unreadable failure)]⟩ := by
          rw [act_setFormula, setFormula_of_failure found read, cell]
          rfl
        have rejects := Notice.rejects_rejected k text (.unreadable failure)
        refine ⟨?_, ?_, ?_⟩
        · rw [refused]
          exact .rejected hk rfl read located.grows rejects
        · simp only [refused, List.mem_singleton]
          rintro n rfl
          exact rejects.finite
        · rw [refused]
          exact ownThere

theorem act_noted (a : Action) : s.Noted a := by
  cases a with
  | setFormula label input => exact setFormula_noted own label input
  | evaluateCell label => exact evaluateCell_noted own label
  | recalculate => exact recalculate_noted own

end Actions

end Sheet

/-- Notices that can be written have lines. -/
theorem Journal.exists_lines (time : String) {ns : List Notice} (h : ∀ n ∈ ns, n.Finite) :
    ∃ written : List String, lines time ns = written.map some := by
  induction ns with
  | nil => exact ⟨[], rfl⟩
  | cons n rest ih =>
    obtain ⟨written, others⟩ := ih fun m hm => h m (List.mem_cons_of_mem _ hm)
    obtain ⟨line, first⟩ := (h n List.mem_cons_self).line? time
    refine ⟨line :: written, ?_⟩
    rw [List.map_cons, ← others, ← first]
    rfl

namespace Workspace

/-- An action leaves the journal as it is but for the lines of its notices. -/
theorem act_contents {w : Workspace} {log : EventLog} (logged : w.journal.log = some log)
    (works : log.Works w.journal.files) (own : w.sheet.SelfLabelled) (a : Action) :
    (w.act a).2.journal.log = some log ∧ (w.act a).2.journal.time = w.journal.time ∧
      log.Works (w.act a).2.journal.files ∧
      ∃ written : List String,
        Journal.lines w.journal.time (w.sheet.act a).notices = written.map some ∧
        log.contents (w.act a).2.journal.files =
          log.contents w.journal.files ++ written.flatMap Text.encodeUtf8 := by
  obtain ⟨written, lines⟩ :=
    Journal.exists_lines w.journal.time (w.sheet.act_noted own a).finite
  obtain ⟨still, time, worksStill, contents⟩ := Journal.noteAll_contents logged works lines
  exact ⟨still, time, worksStill, written, lines, contents⟩

/-- Whatever is done, a log that works holds behind what it held before the lines of all notices, in
order, and of nothing else. -/
theorem run_transcript {w : Workspace} {log : EventLog} (logged : w.journal.log = some log)
    (works : log.Works w.journal.files) (own : w.sheet.SelfLabelled) (actions : List Action) :
    ∃ (ns : List Notice) (written : List String),
      Transcript w.sheet actions (w.run actions).1 (w.run actions).2.sheet ns ∧
      Journal.lines w.journal.time ns = written.map some ∧
      log.contents (w.run actions).2.journal.files =
        log.contents w.journal.files ++ written.flatMap Text.encodeUtf8 := by
  induction actions generalizing w with
  | nil => exact ⟨[], [], .nil _, rfl, by simp [run]⟩
  | cons a rest ih =>
    have noted := w.sheet.act_noted own a
    obtain ⟨still, time, worksStill, written, lines, contents⟩ := act_contents logged works own a
    obtain ⟨ns, more, transcript, others, behind⟩ := ih still worksStill noted.own
    refine ⟨_, written ++ more, .cons noted.told transcript, ?_, ?_⟩
    · rw [time] at others
      rw [List.map_append, ← others, ← lines]
      exact List.map_append
    · change log.contents ((w.act a).2.run rest).2.journal.files = _
      rw [behind, contents, List.flatMap_append, List.append_assoc]

/-- An empty sheet with a log in a tree without files. -/
def fresh : Workspace := ⟨.standard, some EventLog.sampleLog, {}, ""⟩

theorem run_transcript_of_fresh :
    ∃ log, fresh.journal.log = some log ∧ log.Works fresh.journal.files ∧
      fresh.sheet.SelfLabelled ∧
      let actions := [.setFormula "A1" (.text "=1 / 0"), .setFormula "b1" (.text "?"),
        .evaluateCell "A0", .evaluateCell "c1", .recalculate]
      ∃ (ns : List Notice) (written : List String),
        Transcript fresh.sheet actions (fresh.run actions).1 (fresh.run actions).2.sheet ns ∧
        Journal.lines fresh.journal.time ns = written.map some ∧
        log.contents (fresh.run actions).2.journal.files =
          log.contents fresh.journal.files ++ written.flatMap Text.encodeUtf8 := by
  have own : fresh.sheet.SelfLabelled := by
    intro k c hc
    cases hc
  exact ⟨_, rfl, EventLog.sampleLog_works, own, run_transcript rfl EventLog.sampleLog_works own _⟩

end Workspace

end FormulaSheet
