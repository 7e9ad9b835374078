import StockFlow.Datum
import StockFlow.Formula

/-!
# Defining formulas

A formula may be defined by a text or by a number. A number becomes a literal, a negative double
the difference from zero, so that the text of the formula can be read back.
-/

namespace StockFlow.Formula

open StockFlow.Spec

/-- The formula that subtracts a value from zero. -/
def negated (v : Value) : Formula :=
  thenValue zero .minus v

/-- The formula of a double; its digits are written in place. -/
def ofDouble (x : Float) : Except Fault Formula :=
  if x.isNaN then .error .undefinedNumber
  else
    let size : Value := if x.isInf then .infinity else .decimal (Number.positionalText x.abs)
    .ok (if x < 0 then negated size else value size)

/-- The formula of a whole number in the range of doubles. -/
def ofWhole (n : Int) : Except Fault Formula :=
  if (Number.ofWhole? n).isSome then .ok (value (.whole (toString n))) else .error .wholeTooLarge

/-- The formula that a given value defines. -/
def ofDatum : Datum → Except Fault Formula
  | .text s => ofText s
  | .whole n => ofWhole n
  | .real x => ofDouble x
  | d => .error (.notAFormula d.typeName)

end StockFlow.Formula
