import StockFlow.Quantity

/-!
# Exact quantities

Rational numbers with two infinities and a value that is no number. Operations on finite values
are exact; with the others they follow the rules of floating point, so laws of models can be
stated of this arithmetic without rounding.
-/

namespace StockFlow

/-- A rational number, an infinity, or no number. -/
inductive Exact where
  | nan
  | infinite (negative : Bool)
  | finite (value : Rat)
  deriving DecidableEq, Repr

namespace Exact

/-- The sum; opposite infinities have none. -/
def add : Exact → Exact → Exact
  | .nan, _ | _, .nan => .nan
  | .infinite s, .infinite t => if s = t then .infinite s else .nan
  | .infinite s, .finite _ => .infinite s
  | .finite _, .infinite t => .infinite t
  | .finite x, .finite y => .finite (x + y)

/-- The value with the other sign. -/
def neg : Exact → Exact
  | .nan => .nan
  | .infinite s => .infinite (!s)
  | .finite x => .finite (-x)

/-- The infinity of a sign, or no number where the sign is that of zero. -/
def infiniteBy (negative : Bool) (x : Rat) : Exact :=
  if x = 0 then .nan else .infinite (negative != decide (x < 0))

/-- The product; zero times an infinity is no number. -/
def mul : Exact → Exact → Exact
  | .nan, _ | _, .nan => .nan
  | .infinite s, .infinite t => .infinite (s != t)
  | .infinite s, .finite x | .finite x, .infinite s => infiniteBy s x
  | .finite x, .finite y => .finite (x * y)

/-- The quotient; a zero divisor gives the infinity with the sign of the dividend. -/
def div : Exact → Exact → Exact
  | .nan, _ | _, .nan => .nan
  | .infinite _, .infinite _ => .nan
  | .infinite s, .finite x => .infinite (s != decide (x < 0))
  | .finite _, .infinite _ => .finite 0
  | .finite x, .finite y => if y = 0 then infiniteBy false x else .finite (x / y)

/-- The greatest whole value below a finite one; the others stay. -/
def floor : Exact → Exact
  | .finite x => .finite x.floor
  | x => x

/-- Strictly below; nothing is below or above what is no number. -/
def less : Exact → Exact → Bool
  | .nan, _ | _, .nan => false
  | .infinite s, .infinite t => s && !t
  | .infinite s, .finite _ => s
  | .finite _, .infinite t => !t
  | .finite x, .finite y => x < y

/-- Below or equal. -/
def atMost : Exact → Exact → Bool
  | .nan, _ | _, .nan => false
  | .infinite s, .infinite t => s || !t
  | .infinite s, .finite _ => s
  | .finite _, .infinite t => !t
  | .finite x, .finite y => x ≤ y

end Exact

instance : Quantity Exact where
  add := .add
  sub x y := .add x y.neg
  mul := .mul
  div := .div
  zero := .finite 0
  infinity := .infinite false
  nan := .nan
  floor := .floor
  less := Exact.less
  atMost := Exact.atMost
  ofWhole? n := some (.finite n)
  ofDecimal mantissa places := .finite (mantissa / 10 ^ places)

end StockFlow
