import StockFlow.Formula
import StockFlow.Quantity

/-!
# Evaluating formulas

A formula is evaluated strictly from the left, each group by itself. References are looked up in
the current quantities of the stocks; a name that has none is no number.
-/

namespace StockFlow

open StockFlow.Spec

/-- The quantities of stocks at one moment, in the order of their initialization. -/
abbrev Snapshot (α : Type) := Keyed α

variable {α : Type} [Quantity α]

/-- An operator applied to two quantities. -/
def Spec.Operator.apply : Operator → α → α → α
  | plus => (· + ·)
  | minus => (· - ·)
  | times => (· * ·)
  | divide => (· / ·)

/-- The whole number that is spelled by digits, perhaps behind a minus sign. -/
def wholeValue (digits : String) : Int :=
  match digits.toList with
  | '-' :: cs => -(Text.digitsValue cs : Int)
  | cs => Text.digitsValue cs

/-- How many digits a whole number is spelled with. -/
def wholeLength (digits : String) : Nat :=
  digits.toList.countP Text.isAsciiDigit

/-- How many digits stand behind the point. -/
def decimalPlaces (digits : String) : Nat :=
  (digits.toList.dropWhile (· ≠ '.')).length - 1

/-- The quantity of a value, given that of each stock. -/
def Spec.Value.eval (look : String → Except Fault α) : Value → Except Fault α
  | whole digits =>
    if Fault.maxDigits < wholeLength digits then .error (.wholeTooLong (wholeLength digits))
    else
      match Quantity.ofWhole? (wholeValue digits) with
      | some x => .ok x
      | none => .error .wholeTooLarge
  | decimal digits => .ok (Quantity.ofDecimal (Text.digitsValue digits.toList) (decimalPlaces digits))
  | infinity => .ok Quantity.infinity
  | reference name => look name

namespace Formula

/-- The quantity of a formula, given that of each stock. -/
def eval (look : String → Except Fault α) : Formula → Except Fault α
  | value v => v.eval look
  | group f => f.eval look
  | thenValue left op v => do
    let x ← left.eval look
    let y ← v.eval look
    return op.apply x y
  | thenGroup left op f => do
    let x ← left.eval look
    let y ← f.eval look
    return op.apply x y

end Formula

/-- Looks a stock up; one without a quantity is no number. -/
def Snapshot.look (snapshot : Snapshot α) (name : String) : Except Fault α :=
  .ok ((snapshot.find? name).getD Quantity.nan)

/-- The quantity of a formula at a moment. -/
def Formula.evalAt (f : Formula) (snapshot : Snapshot α) : Except Fault α :=
  f.eval (Snapshot.look snapshot)

end StockFlow
