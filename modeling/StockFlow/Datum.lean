import StockFlow.Fault
import StockFlow.Number.Reading
import StockFlow.Number.Text

/-!
# Given values

What a caller may hand over where a formula, a quantity or a round count is wanted: numbers and
texts, and whatever else has to be refused by the name of its type.
-/

namespace StockFlow

/-- A value handed over by a caller. -/
inductive Datum where
  | whole (n : Int)
  | real (x : Float)
  | text (s : String)
  | truth (b : Bool)
  | nothing
  | sequence
  deriving Repr

namespace Datum

/-- The name of a value's type, as messages give it. -/
def typeName : Datum → String
  | whole _ => "int"
  | real _ => "float"
  | text _ => "str"
  | truth _ => "bool"
  | nothing => "NoneType"
  | sequence => "list"

/-- The double that a value stands for; texts are read and truths count as one and zero. -/
def toDouble : Datum → Except Fault Float
  | whole n =>
    match Number.ofWhole? n with
    | some x => .ok x
    | none => .error .wholeTooLarge
  | real x => .ok x
  | text s =>
    match Number.ofText? s with
    | some x => .ok x
    | none => .error (.unreadableNumber s)
  | truth b => .ok (if b then 1.0 else 0.0)
  | d => .error (.notANumber d.typeName)

/-- A truth, which counts as one or zero, or a double without fraction as the whole number that it
equals. -/
def settled : Datum → Datum
  | truth b => whole b.toInt
  | real x =>
    match Number.whole? x with
    | some n => whole n
    | none => real x
  | d => d

/-- Whether two values are equal, numbers by their size. -/
def same (d e : Datum) : Bool :=
  match d.settled, e.settled with
  | whole m, whole n => m == n
  | real x, real y => x == y
  | text s, text t => s == t
  | nothing, nothing | sequence, sequence => true
  | _, _ => false

/-- A value as a table shows it; only doubles lose a zero fraction. -/
def cell : Datum → String
  | whole n => toString n
  | real x => Number.plainText x
  | text s => s
  | truth b => if b then "True" else "False"
  | nothing => "None"
  | sequence => "[]"

end Datum

end StockFlow
