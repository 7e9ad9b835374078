import StockFlow.Attempt
import StockFlow.Builder
import StockFlow.Command
import StockFlow.Command.Folder
import StockFlow.Command.Log
import StockFlow.Command.Options
import StockFlow.Command.Word
import StockFlow.Datum
import StockFlow.Fault
import StockFlow.Flow
import StockFlow.Formula
import StockFlow.Formula.Definition
import StockFlow.Formula.Evaluation
import StockFlow.Keyed
import StockFlow.Main
import StockFlow.Model
import StockFlow.Number.Binary64
import StockFlow.Number.Reading
import StockFlow.Number.Rounding
import StockFlow.Number.Shortest
import StockFlow.Number.Text
import StockFlow.Proofs.Builder.History
import StockFlow.Proofs.Builder.Invariant
import StockFlow.Proofs.Formula.Computation
import StockFlow.Proofs.Formula.Dependence
import StockFlow.Proofs.Formula.Grammar
import StockFlow.Proofs.Model.Validation
import StockFlow.Proofs.Quantity.ExactBounds
import StockFlow.Proofs.Reference.Cycle
import StockFlow.Proofs.Reference.Peeling
import StockFlow.Proofs.Rule.TransferBounds
import StockFlow.Proofs.Simulation.Bounds
import StockFlow.Proofs.Simulation.Conservation
import StockFlow.Proofs.Simulation.Initialization
import StockFlow.Proofs.Simulation.Round
import StockFlow.Proofs.Simulation.Safety
import StockFlow.Proofs.Spec.Calls
import StockFlow.Proofs.Spec.ExpressionText
import StockFlow.Proofs.Spec.Items
import StockFlow.Proofs.Spec.PieceText
import StockFlow.Proofs.Spec.Readable
import StockFlow.Proofs.Text.Joining
import StockFlow.Quantity
import StockFlow.Quantity.Double
import StockFlow.Quantity.Exact
import StockFlow.Reference.Graph
import StockFlow.Reference.Link
import StockFlow.Reference.Order
import StockFlow.Report.Json
import StockFlow.Report.Records
import StockFlow.Report.Run
import StockFlow.Report.Table
import StockFlow.Rounds
import StockFlow.Rule
import StockFlow.Simulation.Check
import StockFlow.Simulation.State
import StockFlow.Spec.Build
import StockFlow.Spec.Expression
import StockFlow.Spec.File
import StockFlow.Spec.Line
import StockFlow.Spec.Piece
import StockFlow.Spec.Value
import StockFlow.Stock
import StockFlow.Study
import StockFlow.Text.Blank
import StockFlow.Text.CaseTables
import StockFlow.Text.Digit
import StockFlow.Text.Hex
import StockFlow.Text.Printable
import StockFlow.Text.Quoted
import StockFlow.Text.Split
import StockFlow.Text.TitleCase
import StockFlow.Proofs.Spec.LinePass
import StockFlow.Proofs.Spec.Reading
import StockFlow.Proofs.Spec.Code
import StockFlow.Proofs.Builder.Declaring
import StockFlow.Proofs.Spec.Meaning
import StockFlow.Proofs.Simulation.Checking
import StockFlow.Proofs.Builder.Request
import StockFlow.Proofs.Builder.Atomicity
import StockFlow.Proofs.Quantity.DoubleValues
import StockFlow.Proofs.Rule.SpecialTransfers
import StockFlow.Proofs.Builder.Infinite
import StockFlow.Proofs.Simulation.Turns
import StockFlow.Proofs.Simulation.InfiniteStock
import StockFlow.Proofs.Simulation.ShareSource
import StockFlow.Proofs.Simulation.Runs
import StockFlow.Proofs.Simulation.Footprint
import StockFlow.Proofs.Simulation.Part
import StockFlow.Proofs.Simulation.FlowOrder
import StockFlow.Proofs.Simulation.Restart
import StockFlow.Proofs.Builder.Redeclaring
import StockFlow.Proofs.Builder.Merging
import StockFlow.Proofs.Spec.Shape
import StockFlow.Proofs.Simulation.CheckFaults
import StockFlow.Proofs.Spec.Wholes
import StockFlow.Proofs.Command.Arguments
import StockFlow.Proofs.Command.Agreement
import StockFlow.Proofs.Rule.TransferLimits
import StockFlow.Proofs.Rule.Level
import StockFlow.Proofs.Model.CircularReferences
import StockFlow.Proofs.Simulation.FailedRound
import StockFlow.Proofs.Number.Meaning
import StockFlow.Proofs.Number.Nearest
import StockFlow.Proofs.Number.Shortest
import StockFlow.Proofs.Number.Decimal
import StockFlow.Proofs.Number.Reading
import StockFlow.Proofs.Number.RoundTrip
import StockFlow.Proofs.Number.Wholes
import StockFlow.Proofs.Rounds.Counts
import StockFlow.Proofs.Report.Cells
import StockFlow.Proofs.Command.Environment
import StockFlow.Proofs.Formula.Spelling
import StockFlow.Proofs.Spec.Parentheses
import StockFlow.Proofs.Reference.Passes
import StockFlow.Proofs.Report.JsonGrammar
import StockFlow.Proofs.Report.JsonText
import StockFlow.Proofs.Report.RunJson
