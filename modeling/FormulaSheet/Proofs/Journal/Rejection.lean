import FormulaSheet.Proofs.Journal.Transcript
import FormulaSheet.Proofs.Sheet.Inlining
/-!
Formulas that are refused, on any sheet. Where the label is no cell of the sheet nothing happens at
all. Text that cannot be read may bring the blank cell of its label into being and is noted, and
that is all: no cell changes and none is evaluated. A formula that is read is never refused, since
the recalculation behind it comes to its end on every sheet.
-/

namespace FormulaSheet

namespace Sheet

/-- What entering a formula comes to. -/
inductive Entered (s : Sheet) (label : String) : FormulaInput → Calculated Reply → Prop
  | misplaced {input : FormulaInput} {e : ReferenceError} (outside : s.key label = .error e) :
      Entered s label input ⟨.refused (.reference e), s, []⟩
  | rejected {k text : String} {failure : LexFailure} {slot : Nat} {t : Sheet}
      (inside : s.key label = .ok k) (unreadable : tokenize text = .error failure)
      (located : Located s k slot t) :
      Entered s label (.text text) ⟨.refused (.unreadable failure), t,
        [.rejected (t.cellAt slot).label text (.unreadable failure)]⟩
  | stored {input : FormulaInput} {k : String} {tokens : List Token} {o : Outcome} {t : Sheet}
      {ns : List Notice} (inside : s.key label = .ok k) (readable : input.read = .ok tokens) :
      Entered s label input ⟨.outcome o, t, ns⟩

theorem storeFormula_answers (s : Sheet) (slot : Nat) (tokens : List Token) :
    ∃ o, (s.storeFormula slot tokens).value = .ok o := by
  obtain ⟨results, told⟩ := (s.modify slot (Cell.setFormula tokens)).recalculate_answers
  unfold storeFormula
  dsimp only
  rw [told]
  exact ⟨_, rfl⟩

theorem setFormula_entered_or_refused (s : Sheet) (label : String) (input : FormulaInput) :
    Entered s label input (s.act (.setFormula label input)) := by
  rw [act_setFormula]
  cases hk : s.key label with
  | error e =>
    rw [setFormula_of_misplaced (locate_eq_error_iff.mpr hk)]
    exact .misplaced hk
  | ok k =>
    obtain ⟨slot, t, found, located⟩ := exists_locate hk
    cases read : input.read with
    | ok tokens =>
      obtain ⟨o, value⟩ := t.storeFormula_answers slot tokens
      rw [setFormula_of_read found read, Calculated.map, value]
      exact .stored hk read
    | error failure =>
      cases input with
      | tokens ts => cases read
      | text text =>
        rw [setFormula_of_failure found read]
        exact .rejected hk read located

section Refusals

variable {s : Sheet} {label : String} {input : FormulaInput} {done : Calculated Reply}

theorem Entered.refused_label_iff (h : Entered s label input done) {e : ReferenceError} :
    done.value = .refused (.reference e) ↔ s.key label = .error e := by
  constructor
  · intro refused
    cases h with
    | misplaced outside =>
      cases refused
      exact outside
    | rejected => cases refused
    | stored => cases refused
  · intro outside
    cases h with
    | misplaced outside' =>
      rw [outside] at outside'
      cases outside'
      rfl
    | rejected inside =>
      rw [outside] at inside
      cases inside
    | stored inside =>
      rw [outside] at inside
      cases inside

theorem Entered.refused_text_iff (h : Entered s label input done) {failure : LexFailure} :
    done.value = .refused (.unreadable failure) ↔
      (∃ k, s.key label = .ok k) ∧ ∃ text, input = .text text ∧ tokenize text = .error failure := by
  constructor
  · intro refused
    cases h with
    | misplaced => cases refused
    | rejected inside unreadable =>
      cases refused
      exact ⟨⟨_, inside⟩, _, rfl, unreadable⟩
    | stored => cases refused
  · rintro ⟨⟨k, inside⟩, text, rfl, unreadable⟩
    cases h with
    | misplaced outside =>
      rw [inside] at outside
      cases outside
    | rejected _ unreadable' =>
      rw [unreadable] at unreadable'
      cases unreadable'
      rfl
    | stored _ readable =>
      rw [FormulaInput.read, unreadable] at readable
      cases readable

theorem Entered.of_refused_label (h : Entered s label input done) {e : ReferenceError}
    (refused : done.value = .refused (.reference e)) : done.sheet = s ∧ done.notices = [] := by
  cases h with
  | misplaced => exact ⟨rfl, rfl⟩
  | rejected => cases refused
  | stored => cases refused

theorem Entered.of_refused_text (h : Entered s label input done) {failure : LexFailure}
    (refused : done.value = .refused (.unreadable failure)) :
    ∃ text slot, input = .text text ∧ Located s (Text.upper label) slot done.sheet ∧
      done.notices = [.rejected (done.sheet.cellAt slot).label text (.unreadable failure)] := by
  cases h with
  | misplaced => cases refused
  | rejected inside _ located =>
    cases refused
    rw [(key_eq_ok_iff.mp inside).1] at located
    exact ⟨_, _, rfl, located, rfl⟩
  | stored => cases refused

end Refusals

end Sheet

namespace Workspace

/-- The second workspace has all the cells of the first one, under the same keys. Only under the key
in question there may be a new blank one. The notice is about the text and the label of the cell
there; a log that works has the line of it behind what it held. -/
structure Rejected (w : Workspace) (k text : String) (n : Notice) (w' : Workspace) : Prop where
  rows : w'.sheet.rows = w.sheet.rows
  columns : w'.sheet.columns = w.sheet.columns
  slots : ∀ k' i, w.sheet.keys.lookup k' = some i → w'.sheet.keys.lookup k' = some i
  here : w'.sheet.cell? k = some ((w.sheet.cell? k).getD (.blank k))
  elsewhere : ∀ k', k' ≠ k → w'.sheet.cell? k' = w.sheet.cell? k'
  about : n.Rejects ((w.sheet.cell? k).getD (.blank k)).label text
  noted : ∀ log, w.journal.log = some log → log.Works w.journal.files →
    w'.journal.log = some log ∧ log.Works w'.journal.files ∧
      ∃ line, EventLog.line? (n.at w.journal.time) = some line ∧
        log.contents w'.journal.files = log.contents w.journal.files ++ Text.encodeUtf8 line

theorem act_eq (w : Workspace) (a : Action) :
    w.act a = ((w.sheet.act a).value, w.after (w.sheet.act a)) := rfl

theorem rejected_of_located {w : Workspace} {k text : String} {e : FormulaError} {slot : Nat}
    {done : Calculated Reply} (located : Sheet.Located w.sheet k slot done.sheet)
    (notices : done.notices = [.rejected (done.sheet.cellAt slot).label text e]) :
    Rejected w k text (.rejected (done.sheet.cellAt slot).label text e) (w.after done) := by
  have about := Notice.rejects_rejected (done.sheet.cellAt slot).label text e
  refine ⟨located.rows, located.columns, located.slots, ?_, ?_, ?_, ?_⟩
  · exact (located.cell k).trans (if_pos rfl)
  · intro k' apart
    exact (located.cell k').trans (if_neg apart)
  · rw [← located.cellAt]
    exact about
  · intro log logged works
    obtain ⟨line, written⟩ := about.finite.line? w.journal.time
    have lines : Journal.lines w.journal.time done.notices = [line].map some := by
      rw [notices, Journal.lines, List.map_singleton, written, List.map_singleton]
    obtain ⟨still, _, worksStill, contents⟩ := Journal.noteAll_contents logged works lines
    rw [List.flatMap_singleton] at contents
    exact ⟨still, worksStill, line, written, contents⟩

/-- Entering a formula is refused for its label exactly if that is no cell of the sheet, and then
leaves everything as it was. It is refused for its text exactly if the label is a cell and the text
cannot be read, and then changes no cell and evaluates none; one notice is written, under the label
that the cell of the key bears, which is the key where cells stand under their own labels. -/
theorem rejected_edit (w : Workspace) (label : String) (input : FormulaInput) :
    (∀ e, (w.act (.setFormula label input)).1 = .refused (.reference e) ↔
      w.sheet.key label = .error e) ∧
    (∀ e, (w.act (.setFormula label input)).1 = .refused (.reference e) →
      (w.act (.setFormula label input)).2 = w) ∧
    (∀ failure, (w.act (.setFormula label input)).1 = .refused (.unreadable failure) ↔
      (∃ k, w.sheet.key label = .ok k) ∧
        ∃ text, input = .text text ∧ tokenize text = .error failure) ∧
    (∀ failure, (w.act (.setFormula label input)).1 = .refused (.unreadable failure) →
      ∃ text n, input = .text text ∧ (w.sheet.act (.setFormula label input)).notices = [n] ∧
        Rejected w (Text.upper label) text n (w.act (.setFormula label input)).2 ∧
        (w.sheet.SelfLabelled → n.Rejects (Text.upper label) text)) := by
  have entered := w.sheet.setFormula_entered_or_refused label input
  simp only [act_eq]
  refine ⟨fun _ => entered.refused_label_iff, ?_, fun _ => entered.refused_text_iff, ?_⟩
  · intro e refused
    obtain ⟨sheet, notices⟩ := entered.of_refused_label refused
    rw [after, sheet, notices]
    rfl
  · intro failure refused
    obtain ⟨text, slot, entry, located, notices⟩ := entered.of_refused_text refused
    refine ⟨text, _, entry, notices, rejected_of_located located notices, ?_⟩
    intro own
    have cell := Sheet.cell?_eq_some_iff.mpr ⟨slot, located.slot, rfl⟩
    rw [located.grows.selfLabelled own _ _ cell]
    exact Notice.rejects_rejected _ text (.unreadable failure)

theorem unreadable_question : tokenize "?" = .error ⟨'?', ⟨1, 1⟩⟩ := by
  decide +kernel

/-- A text that cannot be read, at a label without a cell, and a label that is none. -/
theorem rejected_edit_of_fresh :
    ∃ n, (fresh.act (.setFormula "b1" (.text "?"))).1 = .refused (.unreadable ⟨'?', ⟨1, 1⟩⟩) ∧
      Rejected fresh "B1" "?" n (fresh.act (.setFormula "b1" (.text "?"))).2 ∧
      n.Rejects "B1" "?" ∧ (fresh.act (.setFormula "A0" (.tokens ["1"]))).2 = fresh := by
  have own : fresh.sheet.SelfLabelled := by
    intro k c hc
    cases hc
  have inside : fresh.sheet.key "b1" = .ok "B1" := by decide +kernel
  have outside : fresh.sheet.key "A0" = .error (.notALabel "A0") := by decide +kernel
  obtain ⟨_, _, refused, rejected⟩ := rejected_edit fresh "b1" (.text "?")
  have answer := (refused _).mpr ⟨⟨_, inside⟩, _, rfl, unreadable_question⟩
  obtain ⟨text, n, entry, _, left, about⟩ := rejected _ answer
  cases entry
  rw [← (Sheet.key_eq_ok_iff.mp inside).1] at left about
  obtain ⟨misplaced, unchanged, _⟩ := rejected_edit fresh "A0" (.tokens ["1"])
  exact ⟨n, answer, left, about own, unchanged _ ((misplaced _).mpr outside)⟩

/-- Where the cell of a key bears another label, the notice is about that one. -/
theorem rejection_of_displaced :
    let w : Workspace := ⟨Sheet.displaced, some EventLog.sampleLog, {}, ""⟩
    let after := (w.act (.setFormula "A1" (.text "?"))).2
    w.sheet.key "A1" = .ok "A1" ∧ EventLog.sampleLog.Works w.journal.files ∧
      (w.act (.setFormula "A1" (.text "?"))).1 = .refused (.unreadable ⟨'?', ⟨1, 1⟩⟩) ∧
      ∃ n line, (w.sheet.act (.setFormula "A1" (.text "?"))).notices = [n] ∧
        n.Rejects "A2" "?" ∧ ¬ n.Rejects "A1" "?" ∧
        EventLog.line? (n.at w.journal.time) = some line ∧
        EventLog.sampleLog.contents after.journal.files = Text.encodeUtf8 line := by
  intro w after
  have inside : w.sheet.key "A1" = .ok "A1" := Sheet.key_of_isKey (by decide +kernel)
  have entered := w.sheet.setFormula_entered_or_refused "A1" (.text "?")
  have refused := entered.refused_text_iff.mpr ⟨⟨_, inside⟩, _, rfl, unreadable_question⟩
  obtain ⟨text, slot, entry, located, notices⟩ := entered.of_refused_text refused
  cases entry
  rw [← (Sheet.key_eq_ok_iff.mp inside).1] at located
  have label : (Sheet.cellAt _ slot).label = "A2" := congrArg Cell.label located.cellAt
  have rejected := rejected_of_located located notices
  rw [label] at rejected notices
  have about := Notice.rejects_rejected "A2" "?" (.unreadable ⟨'?', ⟨1, 1⟩⟩)
  obtain ⟨_, _, line, written, contents⟩ :=
    rejected.noted _ rfl EventLog.sampleLog_works
  refine ⟨inside, EventLog.sampleLog_works, refused, _, line, notices, about, ?_, written, ?_⟩
  · intro other
    have same := List.head_eq_of_cons_eq (about.context.symm.trans other.context)
    exact absurd (Value.text.inj (congrArg Prod.snd same)) (by decide)
  · refine contents.trans ?_
    rw [EventLog.sampleLog_contents]
    rfl

end Workspace

end FormulaSheet
