import StockFlow.Fault

/-!
# Tables

Snapshots as text, one line for each round behind a header with the names of the columns. Cells
may be padded to the width of their column's name.
-/

namespace StockFlow.Report

/-- A text filled up with spaces at its end. -/
def padRight (width : Nat) (s : String) : String :=
  s ++ String.ofList (List.replicate (width - s.length) ' ')

/-- How a table is laid out. -/
structure Layout where
  separator : String := "\t"
  /-- Whether cells are filled up to the width of their column's name. -/
  pad : Bool := true
  deriving DecidableEq, Repr

variable {β : Type}

/-- The cells of a row, each with the separator in front of it. -/
def rowCells (write : β → String) (layout : Layout) (snapshot : Keyed β) (columns : List String) :
    Except Fault (List String) :=
  columns.mapM fun name =>
    match snapshot.find? name with
    | some entry =>
      let cell := write entry
      .ok (layout.separator ++ if layout.pad then padRight name.length cell else cell)
    | none => .error (.missingEntry name)

/-- The row of a round. -/
def row (write : β → String) (layout : Layout) (columns : List String) (round : Nat)
    (snapshot : Keyed β) : Except Fault String := do
  return toString round ++ String.join (← rowCells write layout snapshot columns)

/-- The header: an empty cell over the round numbers, then the names of the columns. -/
def header (layout : Layout) (columns : List String) : String :=
  layout.separator ++ layout.separator.intercalate columns

/-- The table of the given columns; the first snapshot is that of round zero. -/
def table (write : β → String) (layout : Layout) (snapshots : List (Keyed β))
    (columns : List String) : Except Fault String := do
  let rows ← snapshots.zipIdx.mapM fun (snapshot, round) => row write layout columns round snapshot
  return "\n".intercalate (header layout columns :: rows)

end StockFlow.Report
