import StockFlow.Spec.Expression

/-!
# Formulas

A formula is an expression that makes sense: operands alternate with operators, an operand being a
value or a formula in parentheses. There is no precedence, so a formula is either one operand or a
formula with an operator and one more operand behind it.
-/

namespace StockFlow

open StockFlow.Spec

/-- A chain of operands, read from the left. -/
inductive Formula where
  | value (v : Value)
  | group (inner : Formula)
  /-- A formula, followed by an operator and a value. -/
  | thenValue (left : Formula) (op : Operator) (v : Value)
  /-- A formula, followed by an operator and a group. -/
  | thenGroup (left : Formula) (op : Operator) (inner : Formula)
  deriving DecidableEq, Repr

/-- Why an expression is not a formula. -/
inductive FormulaFlaw where
  | empty
  | startsWithOperation
  | repeatedOperation
  | missingOperation
  | endsWithOperation
  deriving DecidableEq, Repr

/-- A flaw in words. -/
def FormulaFlaw.reason : FormulaFlaw → String
  | empty => "formula is empty. must specify a number or a reference"
  | startsWithOperation => "can't start with an operation"
  | repeatedOperation => "operation can't be preceded by an operation"
  | missingOperation => "must have an operation between values or references"
  | endsWithOperation => "formula cannot end with an operation"

/-- The first flaw in what follows an operand, not looking into groups. -/
def Spec.Expression.tailFlaw? : Expression → Option FormulaFlaw
  | nil => none
  | value .. | group .. => some .missingOperation
  | operation _ nil => some .endsWithOperation
  | operation _ (operation ..) => some .repeatedOperation
  | operation _ (value _ rest) | operation _ (group _ rest) => rest.tailFlaw?

namespace Formula

/-- The text of an expression as that of a formula. -/
def display (e : Expression) : String :=
  "F(" ++ e.text ++ ")"

/-- Refuses an expression for a flaw. -/
def refuse (e : Expression) (flaw : FormulaFlaw) : Except Fault Formula :=
  .error (.invalidFormula (display e) flaw.reason)

mutual

/-- The formula that an expression makes. Flaws of a sequence come before those of its groups. -/
def ofExpression : Expression → Except Fault Formula
  | .nil => refuse .nil .empty
  | .operation op rest => refuse (.operation op rest) .startsWithOperation
  | .value v rest => extend (.value v rest) (.value v) rest
  | .group inner rest =>
    match rest.tailFlaw? with
    | some flaw => refuse (.group inner rest) flaw
    | none =>
      match ofExpression inner with
      | .ok f => extend (.group inner rest) (.group f) rest
      | .error fault => .error fault

/-- Goes on with a formula read from the front of the sequence `level`. -/
def extend (level : Expression) (left : Formula) : Expression → Except Fault Formula
  | .nil => .ok left
  | .value .. | .group .. => refuse level .missingOperation
  | .operation _ .nil => refuse level .endsWithOperation
  | .operation _ (.operation ..) => refuse level .repeatedOperation
  | .operation op (.value v rest) => extend level (.thenValue left op v) rest
  | .operation op (.group inner rest) =>
    match rest.tailFlaw? with
    | some flaw => refuse level flaw
    | none =>
      match ofExpression inner with
      | .ok f => extend level (.thenGroup left op f) rest
      | .error fault => .error fault

end

/-- The formula that a text spells. -/
def ofText (s : String) : Except Fault Formula := do
  ofExpression (← Expression.ofText s)

/-- The expression of a formula, followed by `rest`. -/
def expressionThen : Formula → Expression → Expression
  | value v, rest => .value v rest
  | group f, rest => .group (f.expressionThen .nil) rest
  | thenValue left op v, rest => left.expressionThen (.operation op (.value v rest))
  | thenGroup left op f, rest =>
    left.expressionThen (.operation op (.group (f.expressionThen .nil) rest))

/-- The expression of a formula. -/
def expression (f : Formula) : Expression :=
  f.expressionThen .nil

/-- A formula in the spelling that reads back as the formula. -/
def spelling (f : Formula) : String :=
  f.expression.text

/-- A formula as messages show it. -/
def text (f : Formula) : String :=
  display f.expression

/-- The stock that a value refers to. -/
def valueReferences : Value → List String
  | .reference name => [name]
  | _ => []

/-- The stocks that a formula refers to, in order of appearance, with repetitions. -/
def references : Formula → List String
  | value v => valueReferences v
  | group f => f.references
  | thenValue left _ v => left.references ++ valueReferences v
  | thenGroup left _ f => left.references ++ f.references

/-- The formula `0`. -/
def zero : Formula :=
  value (.whole "0")

/-- The formula `inf`. -/
def unbounded : Formula :=
  value .infinity

end Formula

end StockFlow
