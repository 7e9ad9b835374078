import StockFlow.Attempt
import StockFlow.Model

/-!
# Building models

A builder collects stocks and flows. Declaring a stock again may fill in a value that is still at
its default, and nothing else; a flow joins two stocks that the builder has declared. A rule that
takes a share of its source is never given an infinite one, neither when the flow is added nor
when the source's initial value is filled in.
-/

namespace StockFlow

/-- What has been declared so far; the parameter is the arithmetic of the model. -/
structure Builder (α : Type) where
  name : String := ""
  stocks : List Stock := []
  flows : List Flow := []
  deriving DecidableEq, Repr

/-- An end of a flow to be added. -/
inductive FlowEnd where
  /-- The stock that the builder declared under a name. -/
  | declared (name : String)
  /-- A stock of another origin, whatever it is called. -/
  | foreign (name : String)
  deriving DecidableEq, Repr

namespace Builder

variable {α : Type}

/-- The stock declared under a name. -/
def stock? (b : Builder α) (name : String) : Option Stock :=
  b.stocks.find? (·.name == name)

/-- Puts a stock in the place of the one that has its name. -/
def replace (b : Builder α) (stock : Stock) : Builder α :=
  { b with stocks := b.stocks.map fun old => if old.name = stock.name then stock else old }

/-- Adds a new stock behind the others. -/
def add (b : Builder α) (stock : Stock) : Attempt (Builder α) Stock :=
  ⟨{ b with stocks := b.stocks ++ [stock] }, .ok stock⟩

theorem stock?_name {b : Builder α} {name : String} {stock : Stock} (h : b.stock? name = some stock) :
    stock.name = name := by
  simpa using List.find?_some h

/-- Putting a stock in place keeps the names and their order. -/
theorem names_replace (b : Builder α) (stock : Stock) :
    (b.replace stock).stocks.map Stock.name = b.stocks.map Stock.name := by
  simp only [replace, List.map_map]
  apply List.map_congr_left
  intro old _
  by_cases h : old.name = stock.name <;> simp [h]

/-- The fault that a stock already has another value. -/
def conflict (stock : Stock) (current wanted : Formula) : Fault :=
  .conflictingValues stock.name current.text wanted.text {}

/-- A stock's maximum filled in. -/
def withMaximum (stock : Stock) (wanted : Formula) : Except Fault Stock :=
  if wanted = .unbounded || wanted = stock.maximum then .ok stock
  else if stock.maximum = .unbounded then .ok { stock with maximum := wanted }
  else .error (conflict stock stock.maximum wanted)

/-- The model that has been declared. -/
def build (b : Builder α) : Model α :=
  { name := b.name, stocks := b.stocks, flows := b.flows }

variable [Quantity α]

/-- Checks a changed stock against the rules of all flows that it is the source of. -/
def checkDrains (b : Builder α) (stock : Stock) : Except Fault Unit :=
  b.flows.forM fun flow =>
    if flow.source = stock.name then flow.rule.checkSource α stock else .ok ()

/-- A stock's initial value filled in. -/
def withInitial (b : Builder α) (stock : Stock) (wanted : Formula) : Except Fault Stock :=
  if wanted = .zero || wanted = stock.initial then .ok stock
  else if stock.initial = .zero then do
    b.checkDrains { stock with initial := wanted }
    return { stock with initial := wanted }
  else .error (conflict stock stock.initial wanted)

/-- Fills in values of a declared stock: the initial value, then the maximum. -/
def merge (b : Builder α) (stock : Stock) (initial maximum : Option Formula) :
    Attempt (Builder α) Stock :=
  match b.withInitial stock (initial.getD .zero) with
  | .error fault => ⟨b, .error fault⟩
  | .ok filled =>
    let b := b.replace filled
    match withMaximum filled (maximum.getD .unbounded) with
    | .error fault => ⟨b, .error fault⟩
    | .ok full => ⟨b.replace full, .ok full⟩

/-- Declares a stock, or fills in values of one that is declared. -/
def stock (b : Builder α) (name : String) (initial maximum : Option Formula) :
    Attempt (Builder α) Stock :=
  match b.stock? name with
  | some known => b.merge known initial maximum
  | none => b.add { name, initial := initial.getD .zero, maximum := maximum.getD .unbounded }

/-- Declares an infinite stock; one that is declared already has to be infinite. -/
def infiniteStock (b : Builder α) (name : String) : Attempt (Builder α) Stock :=
  match b.stock? name with
  | none => b.add (.infinite name)
  | some known =>
    .unchanged b do
      if ← known.isInfinite α then return known
      else .error (conflict known known.initial .unbounded)

/-- The stock at an end of a flow. -/
def resolve (b : Builder α) : FlowEnd → Except Fault Stock
  | .declared name =>
    match b.stock? name with
    | some stock => .ok stock
    | none => .error (.undeclaredStock name)
  | .foreign name => .error (.undeclaredStock name)

/-- The flow between two ends, if both are declared and the source may be drained. -/
def flowBetween (b : Builder α) (source destination : FlowEnd) (rule : Rule) :
    Except Fault Flow := do
  let source ← b.resolve source
  let destination ← b.resolve destination
  Flow.between α source destination rule

/-- Adds a flow behind the others. -/
def flow (b : Builder α) (source destination : FlowEnd) (rule : Rule) :
    Attempt (Builder α) Flow :=
  match b.flowBetween source destination rule with
  | .ok flow => ⟨{ b with flows := b.flows ++ [flow] }, .ok flow⟩
  | .error fault => ⟨b, .error fault⟩

end Builder

end StockFlow
