import StockFlow.Proofs.Model.Validation

/-!
# Reports of circular references

A model whose initial values refer to each other in a cycle is refused with two graphs: the whole
graph of its initial references, and the part of it that is on a cycle or below one, each name with
all of its references as they are written (`Model.acyclicOrder_error_iff`). What merely refers to a
cycle is not part of the second graph.
-/

namespace StockFlow

open StockFlow.Reference
open Relation (ReflTransGen TransGen)

namespace Model

variable {α : Type} {m : Model α}

/-- The references of the initial value of a stock, in order of appearance. -/
def initialReferences (m : Model α) (name : String) : List String :=
  m.stocks.flatMap fun stock => if stock.name = name then stock.initial.references else []

/-- The initial value of a stock refers to another name. -/
def DependsOn (m : Model α) (name other : String) : Prop :=
  other ∈ m.initialReferences name

/-- The two graphs that a model with a cycle is refused with. -/
structure CycleReport (m : Model α) (cycle graph : Graph) : Prop where
  distinct : graph.names.Nodup
  /-- The whole graph has the stocks and all that their initial values refer to. -/
  mem_graph_iff : ∀ name, name ∈ graph.names ↔
    name ∈ m.stockNames ∨ ∃ other, m.DependsOn other name
  graph_row : ∀ name row, (name, row) ∈ graph → row = m.initialReferences name
  /-- The names of the cycle are in the order of the whole graph. -/
  sublist : cycle.names.Sublist graph.names
  /-- They are those that refer to anything and are on a cycle, or reached from one. -/
  mem_cycle_iff : ∀ name, name ∈ cycle.names ↔
    m.initialReferences name ≠ [] ∧
      ∃ start, TransGen m.DependsOn start start ∧ ReflTransGen m.DependsOn start name
  cycle_row : ∀ name row, (name, row) ∈ cycle → row = m.initialReferences name

/-! ## The graph of a model -/

theorem edges_references (m : Model α) (name : String) :
    m.references.outward.edges name = m.initialReferences name := by
  have row : ∀ kind target (formula : Formula), (linksOf kind target formula).flatMap
      (fun link => if link.kind = .initial ∧ link.target = name then [link.source] else []) =
        if kind = .initial ∧ target = name then formula.references else [] := by
    intro kind target formula
    rw [linksOf, List.flatMap_map]
    split
    · exact List.flatMap_singleton' _
    · exact List.flatMap_eq_nil_iff.2 fun _ _ => rfl
  rw [references, edges_outward_references, links, List.flatMap_append, List.flatMap_assoc,
    List.flatMap_assoc]
  simp only [List.flatMap_append, row]
  simp [initialReferences]

theorem refers_links : Refers m.links = m.DependsOn := by
  rw [← edge_references m.stockNames]
  funext name other
  exact congrArg (other ∈ ·) (m.edges_references name)

theorem acyclicOrder_eq (m : Model α) : m.acyclicOrder =
    if m.references.peeled.hasCycle then
      .error (.circularReferences m.references.peeled.residual m.references.outward)
    else .ok m.references.peeled.order :=
  rfl

/-- What peeling leaves of the references of a model is a report on them. -/
theorem cycleReport_residual (m : Model α) :
    m.CycleReport m.references.peeled.residual m.references.outward where
  distinct := nodup_outward_references ..
  mem_graph_iff name := by
    have known : (∃ other, m.DependsOn name other) → name ∈ m.stockNames := by
      rintro ⟨other, refers⟩
      rw [← refers_links, refers_links_iff] at refers
      obtain ⟨stock, listed, rfl, -⟩ := refers
      exact List.mem_map_of_mem listed
    rw [references, mem_names_references, refers_links, exists_or, ← or_assoc]
    exact or_congr_left (or_iff_left_of_imp known)
  graph_row name row entry := by
    obtain ⟨-, rfl⟩ := (Graph.mem_iff (nodup_outward_references ..)).1 entry
    exact m.edges_references name
  sublist := by
    rw [references, ← names_rest]
    exact List.filter_sublist.map _
  mem_cycle_iff name := by
    have listed : name ∈ m.references.peeled.residual.names ↔
        ∃ row, (name, row) ∈ m.references.peeled.residual := by
      simp [Keyed.names]
    rw [listed, ← refers_links, ← edges_references]
    constructor
    · rintro ⟨row, entry⟩
      obtain ⟨in_graph, some_edge, below⟩ := mem_residual_iff.1 entry
      obtain ⟨-, rfl⟩ := (Graph.mem_iff (nodup_outward_references ..)).1 in_graph
      exact ⟨some_edge, below⟩
    · rintro ⟨some_edge, below⟩
      have in_graph := (Graph.mem_iff (nodup_outward_references m.stockNames m.links)).2
        ⟨Graph.mem_names_of_edges some_edge, rfl⟩
      exact ⟨_, mem_residual_iff.2 ⟨in_graph, some_edge, below⟩⟩
  cycle_row name row entry := by
    obtain ⟨in_graph, -⟩ := mem_residual_iff.1 entry
    obtain ⟨-, rfl⟩ := (Graph.mem_iff (nodup_outward_references ..)).1 in_graph
    exact m.edges_references name

/-- A model is refused for a cycle just if one of its initial values depends on itself, and then
with a report on all that is on a cycle or below one. -/
theorem acyclicOrder_error_iff (m : Model α) :
    ((∃ fault, m.acyclicOrder = .error fault) ↔ ∃ name, TransGen m.DependsOn name name) ∧
    ∀ fault, m.acyclicOrder = .error fault →
      ∃ cycle graph, fault = .circularReferences cycle graph ∧ m.CycleReport cycle graph := by
  have circular : m.references.peeled.hasCycle = true ↔ ∃ name, TransGen m.DependsOn name name := by
    rw [references, hasCycle_references_iff, Circular, refers_links]
  rw [← circular, acyclicOrder_eq]
  split
  · rename_i cyclic
    refine ⟨iff_of_true ⟨_, rfl⟩ cyclic, ?_⟩
    rintro _ ⟨⟩
    exact ⟨_, _, rfl, m.cycleReport_residual⟩
  · rename_i acyclic
    exact ⟨iff_of_false (fun ⟨_, failed⟩ => nomatch failed) acyclic, nofun⟩

/-- Two stocks that depend on each other, `a` twice on `b`, and `b` on `c` as well, which depends on a
name that no stock has; `u` depends on the cycle, and `e` on nothing. -/
def knot : Model Float where
  stocks := [
    { name := "u", initial := .value (.reference "a") },
    { name := "a", initial := .thenValue (.value (.reference "b")) .plus (.reference "b") },
    { name := "b", initial := .thenValue (.value (.reference "a")) .plus (.reference "c") },
    { name := "c", initial := .value (.reference "x") },
    { name := "e", maximum := .value (.reference "a") }]

/-- What depends on the cycle is not part of the report, what the cycle depends on is. -/
def knotCycle : Graph :=
  [("a", ["b", "b"]), ("b", ["a", "c"]), ("c", ["x"])]

def knotGraph : Graph :=
  [("u", ["a"]), ("a", ["b", "b"]), ("b", ["a", "c"]), ("c", ["x"]), ("e", []), ("x", [])]

theorem acyclicOrder_error_knot :
    knot.acyclicOrder = .error (.circularReferences knotCycle knotGraph) ∧
      knot.CycleReport knotCycle knotGraph := by
  have failed : knot.acyclicOrder = .error (.circularReferences knotCycle knotGraph) := by
    decide +kernel
  obtain ⟨cycle, graph, same, report⟩ := knot.acyclicOrder_error_iff.2 _ failed
  obtain ⟨rfl, rfl⟩ := Fault.circularReferences.inj same
  exact ⟨failed, report⟩

end Model

end StockFlow
