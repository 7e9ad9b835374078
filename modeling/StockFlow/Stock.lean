import StockFlow.Formula.Evaluation

/-!
# Stocks

A stock is a named container of a quantity. Its initial quantity and its maximum are formulas, so
they may depend on other stocks.
-/

namespace StockFlow

/-- A named container. -/
structure Stock where
  name : String
  initial : Formula := .zero
  /-- The most that flows fill the stock to. -/
  maximum : Formula := .unbounded
  /-- Whether tables have a column for the stock. -/
  shown : Bool := true
  deriving DecidableEq, Repr

namespace Stock

/-- A hidden stock that holds an infinite quantity. -/
def infinite (name : String) : Stock :=
  { name, initial := .unbounded, shown := false }

/-- Whether the stock starts infinite whatever the others hold. -/
def isInfinite (α : Type) [Quantity α] (stock : Stock) : Except Fault Bool :=
  (stock.initial.evalAt ([] : Snapshot α)).map Quantity.isTop

/-- A stock as messages show it. -/
def text (stock : Stock) : String :=
  "Stock(" ++ stock.name ++ ")"

end Stock

end StockFlow
