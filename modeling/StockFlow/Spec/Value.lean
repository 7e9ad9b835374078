import StockFlow.Text.Blank
import StockFlow.Text.Digit

/-!
# Values and operators

The smallest pieces of a formula. A run of characters is a whole number, a decimal, the infinity
or else a reference to a stock; the digits of numbers are ASCII digits and keep their spelling.
-/

namespace StockFlow.Spec

open StockFlow.Text

/-- The binary operators. -/
inductive Operator where
  | plus
  | minus
  | times
  | divide
  deriving DecidableEq, Repr

namespace Operator

/-- The sign of an operator. -/
def sign : Operator → Char
  | plus => '+'
  | minus => '-'
  | times => '*'
  | divide => '/'

/-- The operator that a character is the sign of. -/
def ofChar? : Char → Option Operator
  | '+' => some plus
  | '-' => some minus
  | '*' => some times
  | '/' => some divide
  | _ => none

/-- An operator as text. -/
def text (op : Operator) : String :=
  op.sign.toString

theorem ofChar?_sign (op : Operator) : ofChar? op.sign = some op := by
  cases op <;> rfl

end Operator

/-- An operand that is not a group. -/
inductive Value where
  /-- A whole number, as it is spelled. -/
  | whole (digits : String)
  /-- A number with a decimal point, as it is spelled. -/
  | decimal (digits : String)
  | infinity
  /-- Anything else names a stock. -/
  | reference (name : String)
  deriving DecidableEq, Repr

/-- One or more ASCII digits. -/
def isDigits (cs : List Char) : Bool :=
  !cs.isEmpty && cs.all isAsciiDigit

/-- Digits, perhaps behind a minus sign. -/
def isWhole : List Char → Bool
  | '-' :: cs => isDigits cs
  | cs => isDigits cs

/-- Digits, a point and digits. -/
def isDecimal (cs : List Char) : Bool :=
  match cs.span isAsciiDigit with
  | (whole, '.' :: fraction) => !whole.isEmpty && isDigits fraction
  | _ => false

namespace Value

/-- The spelling of infinity. -/
def infinityText : String :=
  "inf"

/-- The value that a text without blanks at its ends spells. -/
def ofWord (s : String) : Value :=
  if s = infinityText then infinity
  else if isWhole s.toList then whole s
  else if isDecimal s.toList then decimal s
  else reference s

/-- The value that a text spells. -/
def ofText (s : String) : Value :=
  ofWord (strip s)

/-- A value as text. -/
def text : Value → String
  | whole digits | decimal digits => digits
  | infinity => infinityText
  | reference name => name

theorem text_ofWord (s : String) : (ofWord s).text = s := by
  unfold ofWord
  split
  · simp [text, *]
  · split
    · rfl
    · split <;> rfl

end Value

end StockFlow.Spec
