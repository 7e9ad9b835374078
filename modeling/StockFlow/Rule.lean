import StockFlow.Stock

/-!
# Rate rules

A rule says how much a flow moves in one round. There are three kinds: a rate moves a fixed
amount, a conversion uses up its source and brings a scaled whole amount to its destination, and a
leak moves a share of its source. Each is held within what the source holds and what the
destination has room for.
-/

namespace StockFlow

open Quantity

/-- The kinds of flows. -/
inductive FlowKind where
  | rate
  | conversion
  | leak
  deriving DecidableEq, Repr

namespace FlowKind

/-- All kinds, in the order of their numbers, which count from zero. -/
def all : List FlowKind :=
  [rate, conversion, leak]

/-- The name of a kind. -/
def text : FlowKind → String
  | rate => "Rate"
  | conversion => "Conversion"
  | leak => "Leak"

/-- The number of a kind. -/
def number : FlowKind → Nat
  | rate => 0
  | conversion => 1
  | leak => 2

/-- A letter as a capital. The long s and the dotless i are the only other letters that have an
ASCII capital. -/
def capital (c : Char) : Char :=
  if c = 'ſ' then 'S' else if c = 'ı' then 'I' else c.toUpper

/-- The kind that a label names, in any case. -/
def ofLabel (label : String) : Except Fault FlowKind :=
  match all.find? fun kind => kind.text.toList.map capital == label.toList.map capital with
  | some kind => .ok kind
  | none => .error (.unknownFlowType label {})

/-- Whether the amount moved is a share of the source. -/
def takesShare : FlowKind → Bool
  | rate => false
  | conversion | leak => true

end FlowKind

/-- What one flow moves in one round. -/
structure Transfer (α : Type) where
  /-- Taken from the source. -/
  removed : α
  /-- Brought to the destination. -/
  added : α
  deriving DecidableEq, Repr

namespace Transfer

variable {α : Type} [Quantity α]

/-- Nothing moves. -/
def none : Transfer α :=
  ⟨zero, zero⟩

/-- What is taken arrives. -/
def whole (amount : α) : Transfer α :=
  ⟨amount, amount⟩

/-- Moves `amount`, or all of the source if it holds less, as far as there is room. -/
def rate (amount source room : α) : Transfer α :=
  if less zero source then
    let wanted := if atMost zero (source - amount) then amount else source
    whole (greater zero (lesser room wanted))
  else none

/-- What a conversion may use up: as much of the source as yields a whole amount within the room.
An infinite destination or room sets no bound. -/
def convertible (factor source destination room : α) : α :=
  if isInfinite destination || isInfinite room then source
  else lesser source (floor ((room - destination) / factor))

/-- Uses up the source as far as its yield has room, and brings the whole part of the yield. -/
def conversion (factor source destination room : α) : Transfer α :=
  let used := convertible factor source destination room
  if less zero used then
    let yield := floor (used * factor)
    if less zero yield then ⟨used, yield⟩ else none
  else none

/-- Moves the whole part of a share of the source, within the room and the source. -/
def leak (share source room : α) : Transfer α :=
  let wanted := floor (source * share)
  let fitting := if isNaN room then wanted else lesser room wanted
  whole (greater zero (lesser source fitting))

end Transfer

/-- What a kind of flow moves, given its evaluated formula, the quantities at both ends and the
room left at the destination. -/
def FlowKind.transfer {α : Type} [Quantity α] (kind : FlowKind)
    (evaluated source destination room : α) : Transfer α :=
  match kind with
  | .rate => .rate evaluated source room
  | .conversion => .conversion evaluated source destination room
  | .leak => .leak evaluated source room

/-- A kind of flow with the formula that sizes it. -/
structure Rule where
  kind : FlowKind
  formula : Formula
  deriving DecidableEq, Repr

namespace Rule

/-- A rule as messages show it. -/
def text (rule : Rule) : String :=
  rule.kind.text ++ "(" ++ rule.formula.text ++ ")"

/-- What the rule moves, given the quantity of each stock. -/
def transfer {α : Type} [Quantity α] (rule : Rule) (look : String → Except Fault α)
    (source destination room : α) : Except Fault (Transfer α) := do
  let evaluated ← rule.formula.eval look
  return rule.kind.transfer evaluated source destination room

/-- Refuses an infinite source for a rule that takes a share of it. -/
def checkSource (α : Type) [Quantity α] (rule : Rule) (source : Stock) : Except Fault Unit :=
  if rule.kind.takesShare then do
    if ← source.isInfinite α then .error (.illegalSource rule.text source.text) else .ok ()
  else .ok ()

end Rule

end StockFlow
