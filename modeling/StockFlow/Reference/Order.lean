import StockFlow.Reference.Graph

/-!
# Initialization order

Stocks whose initial values refer to others must be initialized after them. The order is found by
peeling: a node that nobody refers to any more, but that refers to others, is taken away with its
edges, until a pass over all nodes takes nothing away. What was taken last comes first in the
order; what could not be taken lies on a cycle or is referred to from one.
-/

namespace StockFlow.Reference

/-- The state of peeling: the edges left in both views, and the nodes taken, the latest first. -/
structure Peeling where
  inward : Graph
  outward : Graph
  taken : List String
  deriving DecidableEq, Repr

namespace Peeling

/-- Removes one edge from `other` back to `node` in the inward view. -/
def dropEdge (node : String) (inward : Graph) (other : String) : Graph :=
  match inward.find? other with
  | some rows => inward.put other (rows.erase node)
  | none => inward

/-- Takes a node away if nobody refers to it and it refers to others. -/
def visit (p : Peeling) (node : String) : Peeling :=
  let edges := p.outward.edges node
  if (p.inward.edges node).isEmpty && !edges.isEmpty then
    { inward := edges.foldl (dropEdge node) p.inward
      outward := p.outward.put node []
      taken := node :: p.taken }
  else p

/-- One pass over all nodes. -/
def sweep (p : Peeling) : Peeling :=
  p.outward.names.foldl visit p

/-- How many nodes still refer to others. -/
def remaining (p : Peeling) : Nat :=
  p.outward.withEdges.length

/-- Sweeps until a pass takes nothing away. -/
def settle (p : Peeling) : Peeling :=
  let next := p.sweep
  if next.remaining < p.remaining then settle next else next
termination_by p.remaining

end Peeling

/-- What peeling finds out about a reference graph. -/
structure Peeled where
  /-- The outward view with the edges that could not be taken away. -/
  rest : Graph
  /-- The nodes taken away, each after those it refers to. -/
  order : List String
  deriving DecidableEq, Repr

namespace Peeled

/-- Whether edges are left. -/
def hasCycle (p : Peeled) : Bool :=
  p.rest.any fun entry => !entry.2.isEmpty

/-- The nodes that still refer to others. -/
def residual (p : Peeled) : Graph :=
  p.rest.withEdges

end Peeled

/-- Peels a graph given by its two views, which need not agree. -/
def peel (inward outward : Graph) : Peeled :=
  let settled := Peeling.settle ⟨inward, outward, []⟩
  ⟨settled.outward, settled.taken⟩

end StockFlow.Reference
