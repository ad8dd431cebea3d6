import FormulaSheet.Journal.Log
import FormulaSheet.Sheet.Calculation
/-!
A workspace is a sheet together with the journal of what is done to it. An action changes the sheet
as the calculation says and hands its notices to the journal in order. The journal is never asked
for anything, so replies and sheets are the same whether it logs, cannot log or has no log.
-/

namespace FormulaSheet

structure Workspace where
  sheet : Sheet
  journal : Journal := {}

/-- What can be done to a sheet. -/
inductive Action
  | setFormula (label : String) (input : FormulaInput)
  | evaluateCell (label : String)
  | recalculate

/-- What an action answers. -/
inductive Reply
  | outcome (o : Outcome)
  /-- Outcomes by label, in evaluation order. -/
  | pass (results : List (String × Outcome))
  | refused (e : FormulaError)

def Reply.ofResult : Except FormulaError Outcome → Reply
  | .ok o => .outcome o
  | .error e => .refused e

def Reply.ofPass : Except ReferenceError (List (String × Outcome)) → Reply
  | .ok results => .pass results
  | .error e => .refused (.reference e)

namespace Sheet

/-- Does an action; an action that is refused may still have created the cell of its label. -/
def act (s : Sheet) : Action → Calculated Reply
  | .setFormula label input => (s.setFormula label input).map Reply.ofResult
  | .evaluateCell label =>
    match s.evaluateCell label with
    | .ok done => done.map .outcome
    | .error e => ⟨.refused (.reference e), s, []⟩
  | .recalculate => s.recalculate.map Reply.ofPass

end Sheet

namespace Workspace

/-- The workspace after a calculation. -/
def after {α : Type} (w : Workspace) (done : Calculated α) : Workspace :=
  ⟨done.sheet, w.journal.noteAll done.notices⟩

def act (w : Workspace) (a : Action) : Reply × Workspace :=
  let done := w.sheet.act a
  (done.value, w.after done)

/-- Does actions one after the other. -/
def run (w : Workspace) : List Action → List Reply × Workspace
  | [] => ([], w)
  | a :: rest =>
    let (reply, w) := w.act a
    let (replies, w) := w.run rest
    (reply :: replies, w)

end Workspace

end FormulaSheet
