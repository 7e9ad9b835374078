import StockFlow.Keyed
import StockFlow.Reference.Link
import StockFlow.Text.Quoted

/-!
# Reference graphs

Two views of the references between initial values: for each stock the ones it refers to, and for
each stock the ones that refer to it. A name may occur several times in a row of either.
-/

namespace StockFlow.Reference

/-- For each node, the nodes at the other end of its edges. -/
abbrev Graph := Keyed (List String)

namespace Graph

/-- The edges at a node; an unknown node has none. -/
def edges (graph : Graph) (node : String) : List String :=
  (graph.find? node).getD []

/-- Adds an edge at a node, and the node where it is new. -/
def addEdge (node other : String) (graph : Graph) : Graph :=
  graph.put node (graph.edges node ++ [other])

/-- Adds a node without edges, unless it is known. -/
def addNode (node : String) (graph : Graph) : Graph :=
  graph.put node (graph.edges node)

theorem edges_put (node other : String) (rows : List String) (graph : Graph) :
    edges (graph.put node rows) other = if node = other then rows else graph.edges other := by
  unfold edges
  rw [Keyed.find?_put]
  split <;> rfl

theorem edges_addEdge (node other target : String) (graph : Graph) :
    (graph.addEdge node other).edges target =
      graph.edges target ++ if node = target then [other] else [] := by
  rw [addEdge, edges_put]
  split
  · rename_i same
    rw [same]
  · rw [List.append_nil]

theorem edges_addNode (node target : String) (graph : Graph) :
    (graph.addNode node).edges target = graph.edges target := by
  rw [addNode, edges_put]
  split
  · rename_i same
    rw [same]
  · rfl

/-- The nodes that have edges, with them. -/
def withEdges (graph : Graph) : Graph :=
  graph.filter fun entry => !entry.2.isEmpty

/-- A graph as it is shown in messages. -/
def text (graph : Graph) : String :=
  Text.quotedEntries Text.quotedList graph

end Graph

/-- The references between initial values, seen from both ends. -/
structure References where
  /-- For each node, those that refer to it. -/
  inward : Graph
  /-- For each node, those that it refers to. -/
  outward : Graph
  deriving DecidableEq, Repr

/-- Adds a link to both views; only links of initial values count. -/
def References.add (references : References) (link : Link) : References :=
  if link.kind = .initial then
    { inward := (references.inward.addEdge link.source link.target).addNode link.target
      outward := (references.outward.addEdge link.target link.source).addNode link.source }
  else references

/-- The references that links hold between the given nodes and whatever else they name. -/
def references (nodes : List String) (links : List Link) : References :=
  let bare : Graph := .ofPairs (nodes.map (·, []))
  links.foldl .add ⟨bare, bare⟩

end StockFlow.Reference
