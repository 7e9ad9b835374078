import StockFlow.Number.Text
import StockFlow.Quantity.Double
import StockFlow.Simulation.State

/-!
# Checking a model

Issues that a model has, without failing on the first of them. A model that cannot be run has
errors, one for each reference that dangles and each stock whose initial value is caught in a
cycle. A model that can be run has warnings, one for each stock that starts above its maximum.
-/

namespace StockFlow

/-- Something about a model that is worth knowing. -/
structure Issue where
  severity : String
  message : String
  /-- The stock concerned. -/
  stock? : Option String := none
  code : Option Code := none
  deriving DecidableEq, Repr

namespace Issue

/-- The severity of what keeps a model from being run. -/
def errorSeverity : String :=
  "error"

/-- The severity of what does not. -/
def warningSeverity : String :=
  "warning"

/-- A fault as an issue. -/
def ofFault (stock? : Option String) (fault : Fault) : Issue :=
  { severity := errorSeverity, message := fault.message, stock?, code := fault.code }

/-- The warning that a stock starts above its maximum. -/
def overfull (name : String) (initial maximum : Float) : Issue :=
  { severity := warningSeverity
    message :=
      "initial value " ++ Number.text initial ++ " of '" ++ name ++ "' exceeds its maximum " ++
        Number.text maximum
    stock? := some name }

/-- Whether an issue keeps the model from being run. -/
def isError (issue : Issue) : Bool :=
  issue.severity == errorSeverity

end Issue

namespace Model

/-- The errors of dangling references. -/
def danglingIssues {α : Type} (m : Model α) : List Issue :=
  m.dangling.map fun dangling => .ofFault (some dangling.owner) dangling.fault

/-- The errors of circular references: one for each name that a cycle keeps from being resolved. -/
def cycleIssues {α : Type} (m : Model α) : List Issue :=
  match m.acyclicOrder with
  | .error (.circularReferences cycle graph) =>
    cycle.names.map fun name => .ofFault (some name) (.circularReferences cycle graph)
  | _ => []

/-- The warnings of stocks that start above their maximum. -/
def overfullIssues (m : Model Float) (initial : Snapshot Float) : Except Fault (List Issue) := do
  let found ← m.stocks.mapM fun stock => do
    let maximum ← stock.maximum.evalAt initial
    let value ← Snapshot.entry initial stock.name
    return if Quantity.less maximum value then some (Issue.overfull stock.name value maximum) else none
  return found.filterMap id

/-- The issues of a model. Only numbers out of range make this fail. -/
def check (m : Model Float) : Except Fault (List Issue) :=
  match m.danglingIssues ++ m.cycleIssues with
  | [] =>
    match m.simulate [] with
    | .ok state => m.overfullIssues state.values
    | .error fault => if fault.isOfModel then .ok [.ofFault none fault] else .error fault
  | issues => .ok issues

end Model

end StockFlow
