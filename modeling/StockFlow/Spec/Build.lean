import StockFlow.Builder
import StockFlow.Spec.Line

/-!
# Building from a spec

Each line of a spec declares up to two stocks. Where it also holds a flow, the flow runs from the
first stock to the second. A fault ends the building and is reported for its line.
-/

namespace StockFlow

open StockFlow.Spec

namespace Spec

/-- The kind of a flow: the one its label names, or for a flow without label a conversion if it is
a lone decimal and else a rate. -/
def FlowPiece.kind (piece : FlowPiece) : Except Fault FlowKind :=
  if piece.label ≠ "" then FlowKind.ofLabel piece.label
  else
    match piece.parameters with
    | .value (.decimal _) .nil :: _ => .ok .conversion
    | _ => .ok .rate

/-- The rule of a flow: its kind and its first parameter. -/
def FlowPiece.rule (piece : FlowPiece) : Except Fault Rule := do
  let kind ← piece.kind
  let formula ← Formula.ofExpression (piece.parameters.head?.getD .nil)
  return ⟨kind, formula⟩

/-- The formula of an optional parameter. -/
def optionalFormula : Option Expression → Except Fault (Option Formula)
  | none => .ok none
  | some e => (Formula.ofExpression e).map some

/-- The initial value and the maximum that parameters give; further ones are passed over. -/
def stockFormulas (parameters : List Expression) :
    Except Fault (Option Formula × Option Formula) := do
  let initial ← optionalFormula parameters[0]?
  let maximum ← optionalFormula parameters[1]?
  return (initial, maximum)

end Spec

namespace Builder

variable {α : Type} [Quantity α]

/-- Declares a stock as it is written. -/
def declare (b : Builder α) : StockPiece → Attempt (Builder α) Stock
  | .infinite name => b.infiniteStock name
  | .finite name parameters =>
    match stockFormulas parameters with
    | .ok (initial, maximum) => b.stock name initial maximum
    | .error fault => ⟨b, .error fault⟩

/-- Adds a flow as it is written. -/
def connect (b : Builder α) (source destination : FlowEnd) (piece : FlowPiece) :
    Attempt (Builder α) Flow :=
  match piece.rule with
  | .ok rule => b.flow source destination rule
  | .error fault => ⟨b, .error fault⟩

/-- Builds the pieces of a line, of which the stocks `ends` have been declared already. -/
def addPieces (b : Builder α) (ends : List String) : List Piece → Attempt (Builder α) Unit
  | [] => ⟨b, .ok ()⟩
  | .stock written :: rest =>
    if ends.length < 2 then
      (b.declare written).andThen fun b stock => b.addPieces (ends ++ [stock.name]) rest
    else b.addPieces ends rest
  | .flow written :: rest =>
    match ends with
    | [source, destination] =>
      (b.connect (.declared source) (.declared destination) written).andThen
        fun b _ => b.addPieces ends rest
    | _ => b.addPieces ends rest
  | _ :: rest => b.addPieces ends rest

/-- Builds a line; a fault is one of the line. -/
def addLine (b : Builder α) (line : Line) : Attempt (Builder α) Unit :=
  let attempt := b.addPieces [] line.pieces
  { attempt with result := attempt.result.mapError (·.atLine line.place) }

/-- Builds lines up to the first fault. -/
def addLines (b : Builder α) : List Line → Attempt (Builder α) Unit
  | [] => ⟨b, .ok ()⟩
  | line :: rest => (b.addLine line).andThen fun b _ => b.addLines rest

/-- Declares the stock that a text gives. -/
def stockText (b : Builder α) (text : String) : Attempt (Builder α) Stock :=
  match StockPiece.ofText text with
  | .ok piece => b.declare piece
  | .error fault => ⟨b, .error fault⟩

/-- Adds the flow that a text gives. -/
def flowText (b : Builder α) (source destination : FlowEnd) (text : String) :
    Attempt (Builder α) Flow :=
  match FlowPiece.ofText text with
  | .ok piece => b.connect source destination piece
  | .error fault => ⟨b, .error fault⟩

end Builder

/-- The model of a spec. -/
def Model.ofText {α : Type} [Quantity α] (name text : String) : Except Fault (Model α) := do
  let lines ← Spec.scan text
  let attempt := Builder.addLines { name : Builder α } lines
  attempt.result
  return attempt.after.build

/-- The number of the line at which a spec whose lines can all be scanned fails to be built. -/
def Model.buildFailure? (α : Type) [Quantity α] (text : String) : Option Int := do
  let lines ← (Spec.scan text).toOption
  let fault ← (Builder.addLines ({} : Builder α) lines).fault?
  return (← fault.place?).number

end StockFlow
