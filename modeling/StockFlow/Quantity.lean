/-!
# Quantities

The arithmetic that a model computes in. Stocks hold quantities, formulas combine them and flows
move them; nothing else in the library asks what a quantity is. Besides finite values there is an
infinity, which unbounded stocks hold, and a value that is no number, which undefined operations
give and which compares false with everything.
-/

namespace StockFlow

/-- An arithmetic with an infinity and a value that is no number. -/
class Quantity (α : Type) extends Add α, Sub α, Mul α, Div α where
  zero : α
  infinity : α
  nan : α
  /-- The greatest whole value that is at most the given one. -/
  floor : α → α
  less : α → α → Bool
  atMost : α → α → Bool
  /-- The value of a whole number, unless it is too large to have one. -/
  ofWhole? : Int → Option α
  /-- The value of `mantissa / 10 ^ places`. -/
  ofDecimal : (mantissa places : Nat) → α

namespace Quantity

variable {α : Type} [Quantity α]

/-- Only a value that is no number differs from itself. -/
def isNaN (x : α) : Bool :=
  !atMost x x

/-- Positive infinity. -/
def isTop (x : α) : Bool :=
  atMost infinity x

/-- Infinite on either side. -/
def isInfinite (x : α) : Bool :=
  isTop x || atMost x (zero - infinity)

/-- The first argument, unless the second is less. -/
def lesser (x y : α) : α :=
  if less y x then y else x

/-- The first argument, unless the second is greater. -/
def greater (x y : α) : α :=
  if less x y then y else x

end Quantity

end StockFlow
