import FormulaSheet.Journal.Event
import FormulaSheet.Sheet.Order
/-!
Calculation on a sheet. Evaluating a cell leaves value and fault on it; recalculating evaluates
every formula once, in evaluation order; setting a formula recalculates the sheet. Each operation
tells what it did in notices and never looks at what becomes of them. Circular references are not
detected: a cell on a cycle sees what the others hold when its turn comes.
-/

namespace FormulaSheet

/-- What an operation gave, the sheet behind it, and what there is to note, in order. -/
structure Calculated (α : Type) where
  value : α
  sheet : Sheet
  notices : List Notice

def Calculated.map {α β : Type} (f : α → β) (done : Calculated α) : Calculated β :=
  ⟨f done.value, done.sheet, done.notices⟩

/-- A formula as it is entered: text still to be read, or tokens. -/
inductive FormulaInput
  | text (s : String)
  | tokens (ts : List Token)

namespace Sheet

/-- Evaluates the cell of a slot and stores the outcome on it. -/
def evaluateSlot (s : Sheet) (slot : Nat) : Calculated Outcome :=
  let cell := s.cellAt slot
  let (outcome, s) := s.evaluate Label.isLabel cell.formula
  ⟨outcome, s.modify slot (·.setOutcome outcome),
    [.ofOutcome cell.label cell.formula outcome]⟩

def evaluateCell (s : Sheet) (label : String) : Except ReferenceError (Calculated Outcome) :=
  (s.locate label).map fun (slot, s) => s.evaluateSlot slot

/-- Goes on with the other cells behind a first one, if that one is a cell of the sheet. -/
def passOn (s : Sheet) (label : String)
    (others : Sheet → Calculated (Except ReferenceError (List (String × Outcome)))) :
    Except ReferenceError (Calculated Outcome) →
      Calculated (Except ReferenceError (List (String × Outcome)))
  | .error e => ⟨.error e, s, []⟩
  | .ok first =>
    let others := others first.sheet
    ⟨others.value.map ((label, first.value) :: ·), others.sheet, first.notices ++ others.notices⟩

/-- Evaluates the cells of the labels in turn, up to the first label that is no cell of the sheet. -/
def evaluateAll (s : Sheet) :
    List String → Calculated (Except ReferenceError (List (String × Outcome)))
  | [] => ⟨.ok [], s, []⟩
  | label :: rest => s.passOn label (fun s => s.evaluateAll rest) (s.evaluateCell label)

/-- What closes the notices of a pass; nothing for a pass that broke off. -/
def passClosing : Except ReferenceError (List (String × Outcome)) → List Notice
  | .error _ => []
  | .ok results => [.completed results.length (results.filter fun r => !r.2.isOk).length]

/-- Evaluates every formula, cells behind those they refer to. -/
def recalculate (s : Sheet) : Calculated (Except ReferenceError (List (String × Outcome))) :=
  let order := s.evaluationOrder
  let pass := s.evaluateAll order
  { pass with notices := .started order.length :: (pass.notices ++ passClosing pass.value) }

/-- Stores tokens on the cell of a slot and recalculates the sheet. -/
def storeFormula (s : Sheet) (slot : Nat) (tokens : List Token) :
    Calculated (Except FormulaError Outcome) :=
  let pass := (s.modify slot (·.setFormula tokens)).recalculate
  ⟨(pass.value.map fun _ => (pass.sheet.cellAt slot).outcome).mapError .reference, pass.sheet,
    pass.notices⟩

/-- Enters a formula. A label that is no cell of the sheet changes nothing. Text that cannot be read
is noted and leaves every cell as it was, though the cell of the label may have come into being. -/
def setFormula (s : Sheet) (label : String) (input : FormulaInput) :
    Calculated (Except FormulaError Outcome) :=
  match s.locate label with
  | .error e => ⟨.error (.reference e), s, []⟩
  | .ok (slot, s) =>
    match input with
    | .tokens tokens => s.storeFormula slot tokens
    | .text text =>
      match tokenize text with
      | .ok tokens => s.storeFormula slot tokens
      | .error failure =>
        let error := FormulaError.unreadable failure
        ⟨.error error, s, [.rejected (s.cellAt slot).label text error]⟩

end Sheet

end FormulaSheet
