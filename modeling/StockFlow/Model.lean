import StockFlow.Flow
import StockFlow.Reference.Order

/-!
# Models

A model is a list of stocks and a list of flows between them, both in order of declaration. It can
be run if every reference names a stock of the model and the initial values do not refer to each
other in a cycle; the order in which such references are resolved is part of what is found out.
-/

namespace StockFlow

open StockFlow.Reference

/-- Stocks and flows; the parameter is the arithmetic that the model computes in. -/
structure Model (α : Type) where
  name : String := ""
  stocks : List Stock := []
  flows : List Flow := []
  deriving DecidableEq, Repr

/-- A reference to a stock that the model does not have. -/
structure Dangling where
  /-- The stock whose formula refers, or the destination of the flow whose rate does. -/
  owner : String
  formula : Formula
  name : String
  deriving DecidableEq, Repr

/-- A dangling reference as a fault. -/
def Dangling.fault (dangling : Dangling) : Fault :=
  .unresolvedReference dangling.formula.text dangling.name

namespace Model

variable {α : Type}

/-- The names of the stocks, in order of declaration. -/
def stockNames (m : Model α) : List String :=
  m.stocks.map Stock.name

/-- The stock of a name. -/
def stock? (m : Model α) (name : String) : Option Stock :=
  m.stocks.find? (·.name == name)

/-- The stock of a name, or the fault that there is none. -/
def stock (m : Model α) (name : String) : Except Fault Stock :=
  match m.stock? name with
  | some stock => .ok stock
  | none => .error (.missingStock .model name)

/-- The names of the stocks that tables show. -/
def columns (m : Model α) : List String :=
  (m.stocks.filter Stock.shown).map Stock.name

/-- The references of a formula to stocks that the model does not have. -/
def danglingIn (m : Model α) (owner : String) (formula : Formula) : List Dangling :=
  (formula.references.filter fun name => !m.stockNames.contains name).map fun name =>
    ⟨owner, formula, name⟩

/-- All references to stocks that the model does not have: those of stocks before those of flows. -/
def dangling (m : Model α) : List Dangling :=
  (m.stocks.flatMap fun stock =>
      m.danglingIn stock.name stock.initial ++ m.danglingIn stock.name stock.maximum) ++
    m.flows.flatMap fun flow => m.danglingIn flow.destination flow.rule.formula

/-- The links that a formula's references make. -/
def linksOf (kind : LinkKind) (target : String) (formula : Formula) : List Link :=
  formula.references.map (⟨·, target, kind⟩)

/-- All references of the model; those of a rate point at the destination of its flow. -/
def links (m : Model α) : List Link :=
  (m.stocks.flatMap fun stock =>
      linksOf .initial stock.name stock.initial ++ linksOf .maximum stock.name stock.maximum) ++
    m.flows.flatMap fun flow => linksOf .rate flow.destination flow.rule.formula

/-- The reference graph of the initial values. -/
def references (m : Model α) : References :=
  Reference.references m.stockNames m.links

/-- The order that peeling gives the stocks with initial references, unless they form a cycle. -/
def acyclicOrder (m : Model α) : Except Fault (List String) :=
  let graph := m.references
  let peeled := peel graph.inward graph.outward
  if peeled.hasCycle then .error (.circularReferences peeled.residual graph.outward)
  else .ok peeled.order

/-- The order in which stocks with initial references are initialized. It exists just if no
reference dangles and none is circular. -/
def order (m : Model α) : Except Fault (List String) :=
  match m.dangling with
  | dangling :: _ => .error dangling.fault
  | [] => m.acyclicOrder

/-- The stocks that the initial value of a stock depends on, each once. -/
def incoming (m : Model α) (name : String) : Except Fault (List String) :=
  (m.stock name).map fun stock => stock.initial.references.eraseDups

/-- A list in words; an empty one is nothing. -/
def listed (items : List String) : String :=
  if items.isEmpty then "nothing" else ", ".intercalate items

/-- What a stock is and which flows touch it, in words. -/
def explain [Quantity α] (m : Model α) (name : String) : Except Fault String := do
  let stock ← m.stock name
  let kind :=
    if ← stock.isInfinite α then "an infinite stock"
    else "a stock with initial value " ++ stock.initial.text ++ ", maximum " ++ stock.maximum.text
  let inflows := (m.flows.filter (·.destination == name)).map fun flow =>
    flow.rule.text ++ " from " ++ flow.source
  let outflows := (m.flows.filter (·.source == name)).map fun flow =>
    flow.rule.text ++ " to " ++ flow.destination
  return name ++ " is " ++ kind ++ ", increased by " ++ listed inflows ++ ", decreased by " ++
    listed outflows

/-- A model as messages show it. -/
def text (m : Model α) : String :=
  let name := if m.name = "" then "" else " '" ++ m.name ++ "'"
  "<Model" ++ name ++ " with " ++ toString m.stocks.length ++ " stock(s) and " ++
    toString m.flows.length ++ " flow(s)>"

end Model

end StockFlow
