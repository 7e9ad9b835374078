import StockFlow.Report.Json
import StockFlow.Report.Table
import StockFlow.Simulation.Check

/-!
# Runs

The outcome of a simulation: a snapshot of all stocks for the start and for each round, and the
columns to show. A run can be looked at as a table, as series of single stocks and as JSON. What a
simulation records are doubles; a run put together by hand may record anything.
-/

namespace StockFlow

open StockFlow.Report

/-- The snapshots of a simulation, the start first. -/
structure Run (β : Type) where
  snapshots : List (Keyed β)
  /-- The names of the stocks shown. -/
  columns : List String

namespace Run

variable {β : Type}

/-- How many rounds were done after the start. -/
def rounds (run : Run β) : Int :=
  run.snapshots.length - 1

/-- The last snapshot. -/
def final (run : Run β) : Keyed β :=
  run.snapshots.getLast?.getD []

/-- What is recorded of one stock over all rounds. -/
def series (run : Run β) (name : String) : Except Fault (List β) :=
  match run.snapshots with
  | [] => .ok []
  | first :: _ =>
    if first.has name then run.snapshots.mapM (Snapshot.entry · name)
    else .error (.missingStock .run name)

/-- What is recorded of the stocks shown, a row for each round. -/
def rows (run : Run β) : Except Fault (List (List β)) :=
  run.snapshots.mapM fun snapshot => run.columns.mapM (Snapshot.entry snapshot)

/-- The table of the stocks shown, its cells written by `write`. -/
def tableBy (write : β → String) (run : Run β) (layout : Layout) : Except Fault String :=
  Report.table write layout run.snapshots run.columns

/-- The table of the stocks shown. -/
def table (run : Run Float) (layout : Layout) : Except Fault String :=
  run.tableBy Number.plainText layout

/-- A run as JSON around its snapshots. -/
def record (run : Run β) (snapshots : List Json) : Json :=
  .record [
    ("columns", .list (run.columns.map .text)),
    ("rounds", .whole run.rounds),
    ("snapshots", .list snapshots)]

/-- A snapshot as JSON, its entries written by `write`. -/
def snapshotJsonBy (write : β → Except Fault Json) (snapshot : Keyed β) : Except Fault Json := do
  return .record (← snapshot.mapM fun (name, b) => do return (name, ← write b))

/-- A run as JSON, with all stocks, its entries written by `write`. -/
def jsonBy (write : β → Except Fault Json) (run : Run β) : Except Fault Json := do
  return run.record (← run.snapshots.mapM (snapshotJsonBy write))

/-- A snapshot as JSON. -/
def snapshotJson (snapshot : Snapshot Float) : Json :=
  .record (snapshot.map fun (name, x) => (name, .ofDouble x))

/-- A run as JSON, with all stocks. -/
def json (run : Run Float) : Json :=
  run.record (run.snapshots.map snapshotJson)

/-- A run as messages show it. -/
def text (run : Run β) : String :=
  "<Run with " ++ toString run.rounds ++ " round(s) of " ++ toString run.columns.length ++
    " stock(s)>"

end Run

/-- Runs a model for a number of rounds. -/
def Model.getRun (m : Model Float) (rounds : Nat) (overrides : Overrides Float) :
    Except Fault (Run Float) := do
  return ⟨← m.run rounds overrides, m.columns⟩

end StockFlow
