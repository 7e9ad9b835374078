import StockFlow.Number.Rounding
import StockFlow.Quantity

/-!
# Doubles as quantities

The arithmetic of running models: doubles, rounded after each operation.
-/

namespace StockFlow

instance : Quantity Float where
  zero := 0.0
  infinity := 1.0 / 0.0
  nan := 0.0 / 0.0
  floor := Number.floor
  less x y := x < y
  atMost x y := x ≤ y
  ofWhole? := Number.ofWhole?
  ofDecimal mantissa places := Number.ofDecimal mantissa (-places)

end StockFlow
