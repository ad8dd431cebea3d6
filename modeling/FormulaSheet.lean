import FormulaSheet.Main
import FormulaSheet.Proofs.Sheet.Failure
import FormulaSheet.Proofs.Sheet.EditOrder
import FormulaSheet.Proofs.Sheet.Inlining
import FormulaSheet.Proofs.Decimal.Numeral
import FormulaSheet.Proofs.Formula.Lexemes
import FormulaSheet.Proofs.Address.Column
import FormulaSheet.Proofs.Address.Codes
import FormulaSheet.Proofs.Data.Json.Numbers
import FormulaSheet.Proofs.Data.Json.Order
import FormulaSheet.Proofs.Data.Json.RoundTrip
import FormulaSheet.Proofs.Data.Json.Visible
import FormulaSheet.Proofs.Data.Json.Characters
import FormulaSheet.Proofs.Data.Json.Ordered
import FormulaSheet.Proofs.Formula.Display
import FormulaSheet.Proofs.Journal.Records
import FormulaSheet.Proofs.Journal.Notices
import FormulaSheet.Proofs.Journal.Transcript
import FormulaSheet.Proofs.Sheet.Positions
import FormulaSheet.Proofs.Sheet.Dependents
import FormulaSheet.Proofs.Journal.Window
import FormulaSheet.Proofs.Command.Loading
import FormulaSheet.Proofs.Journal.Queries
import FormulaSheet.Proofs.Command.Evaluate
import FormulaSheet.Proofs.Formula.Classes
import FormulaSheet.Proofs.Sheet.Blanks
import FormulaSheet.Proofs.Sheet.Reading
import FormulaSheet.Proofs.Sheet.Footprint
import FormulaSheet.Proofs.Journal.Filtering
import FormulaSheet.Proofs.Journal.Rejection
import FormulaSheet.Proofs.Sheet.Lookup
import FormulaSheet.Proofs.Sheet.Spellings
import FormulaSheet.Proofs.Sheet.Placement
import FormulaSheet.Proofs.Journal.Suffix
import FormulaSheet.Proofs.Journal.Unfinished
import FormulaSheet.Proofs.Journal.Independence
import FormulaSheet.Proofs.Formula.Numbers
import FormulaSheet.Proofs.Formula.Calls
import FormulaSheet.Proofs.Formula.Longest
import FormulaSheet.Journal.Raw
import FormulaSheet.Proofs.Journal.Lossless
