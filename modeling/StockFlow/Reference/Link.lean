/-!
# Links

A link says that a formula of one stock or flow refers to another stock.
-/

namespace StockFlow.Reference

/-- Which formula of the dependent stock or flow holds a reference. -/
inductive LinkKind where
  | initial
  | maximum
  | rate
  deriving DecidableEq, Repr

/-- The word for a kind of link. -/
def LinkKind.text : LinkKind → String
  | .initial => "initial"
  | .maximum => "maximum"
  | .rate => "rate"

/-- A reference from one formula to a stock. -/
structure Link where
  /-- The stock referred to. -/
  source : String
  /-- The stock whose formula refers, or the destination of the flow whose rate does. -/
  target : String
  kind : LinkKind
  deriving DecidableEq, Repr

/-- A link as an arrow from the stock referred to. -/
def Link.text (link : Link) : String :=
  link.source ++ " --" ++ link.kind.text ++ "--> " ++ link.target

end StockFlow.Reference
