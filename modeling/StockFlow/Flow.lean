import StockFlow.Rule

/-!
# Flows

A flow moves quantities from one stock to another by a rule. It names its stocks, so a stock that
is declared further after the flow is seen as it is then.
-/

namespace StockFlow

/-- A directed transfer between two stocks. -/
structure Flow where
  source : String
  destination : String
  rule : Rule
  deriving DecidableEq, Repr

namespace Flow

/-- A flow as messages show it. -/
def text (flow : Flow) : String :=
  "Flow(" ++ flow.source ++ " > " ++ flow.destination ++ " @ " ++ flow.rule.text ++ ")"

/-- A flow between two stocks, unless its rule cannot drain the source. -/
def between (α : Type) [Quantity α] (source destination : Stock) (rule : Rule) :
    Except Fault Flow := do
  rule.checkSource α source
  return ⟨source.name, destination.name, rule⟩

variable {α : Type} [Quantity α]

/-- The room left in a stock that holds `held`, given the quantity of each stock; infinite holdings
take away nothing. -/
def room (destination : Stock) (look : String → Except Fault α) (held : α) : Except Fault α := do
  let maximum ← destination.maximum.eval look
  return if Quantity.isInfinite held then maximum else maximum - held

/-- What a flow into `destination` moves, given the quantity of each stock. -/
def transfer (flow : Flow) (destination : Stock) (look : String → Except Fault α)
    (source held : α) : Except Fault (Transfer α) := do
  flow.rule.transfer look source held (← room destination look held)

end Flow

end StockFlow
