import Mathlib.Logic.Relation
import Mathlib.Order.WellFoundedSet
import StockFlow.Proofs.Reference.Peeling

/-!
# Cycles of references

The links between initial values as a directed graph (`Refers`), and what peeling finds out about
it: edges are left exactly if the graph has a cycle, namely those of the nodes on a cycle or below
one (`edges_rest_ne_nil_iff`), and where it has none the order holds every node that refers to
others, once, behind the ones it refers to.
-/

namespace StockFlow.Reference

/-- The initial value of `node` refers to `other`. -/
def Refers (links : List Link) (node other : String) : Prop :=
  ⟨other, node, .initial⟩ ∈ links

/-- Some node refers to itself, directly or through others. -/
def Circular (links : List Link) : Prop :=
  ∃ node, Relation.TransGen (Refers links) node node

/-- On a cycle, or reached from one by following references. -/
def BelowCycle (links : List Link) (node : String) : Prop :=
  ∃ start, Relation.TransGen (Refers links) start start ∧
    Relation.ReflTransGen (Refers links) start node

/-! ## The two views of the links -/

theorem References.edges_outward_add (r : References) (link : Link) (node : String) :
    (r.add link).outward.edges node = r.outward.edges node ++
      if link.kind = .initial ∧ link.target = node then [link.source] else [] := by
  unfold add
  by_cases initial : link.kind = .initial
  · rw [if_pos initial, Graph.edges_addNode, Graph.edges_addEdge]
    simp [initial]
  · simp [initial]

theorem References.edges_inward_add (r : References) (link : Link) (node : String) :
    (r.add link).inward.edges node = r.inward.edges node ++
      if link.kind = .initial ∧ link.source = node then [link.target] else [] := by
  unfold add
  by_cases initial : link.kind = .initial
  · rw [if_pos initial, Graph.edges_addNode, Graph.edges_addEdge]
    simp [initial]
  · simp [initial]

theorem References.mem_names_add {r : References} {link : Link} {node : String} :
    node ∈ (r.add link).outward.names ↔
      node ∈ r.outward.names ∨ link.kind = .initial ∧ (node = link.target ∨ node = link.source) := by
  unfold add
  by_cases initial : link.kind = .initial
  · rw [if_pos initial]
    simp only [Graph.addNode, Graph.addEdge, Keyed.mem_names_put, initial, true_and, or_assoc]
  · simp [initial]

/-- Nodes alone have no edges. -/
theorem edges_bare (nodes : List String) (node : String) :
    Graph.edges (.ofPairs (nodes.map (·, []))) node = [] := by
  refine List.foldlRecOn (motive := fun graph : Graph => graph.edges node = []) _ _ rfl ?_
  intro graph none pair listed
  obtain ⟨name, -, rfl⟩ := List.mem_map.1 listed
  rw [Graph.edges_put]
  split
  · rfl
  · exact none

theorem mem_names_bare {nodes : List String} {node : String} :
    node ∈ Keyed.names (.ofPairs (nodes.map (·, ([] : List String)))) ↔ node ∈ nodes := by
  have all : ∀ graph : Graph, node ∈ Keyed.names ((nodes.map (·, [])).foldl
      (fun entries (name, entry) => Keyed.put name entry entries) graph) ↔
        node ∈ graph.names ∨ node ∈ nodes := by
    induction nodes with
    | nil => simp
    | cons head rest ih =>
      intro graph
      rw [List.map_cons, List.foldl_cons, ih, Keyed.mem_names_put, List.mem_cons, or_assoc]
  exact (all []).trans (or_iff_right List.not_mem_nil)

/-- What each link adds to a row makes up the row. -/
theorem foldl_add_row (row : References → List String) (added : Link → List String)
    (step : ∀ (r : References) link, row (r.add link) = row r ++ added link) (links : List Link)
    (r : References) : row (links.foldl .add r) = row r ++ links.flatMap added := by
  induction links generalizing r with
  | nil => exact (List.append_nil _).symm
  | cons link rest ih => rw [List.foldl_cons, ih, step, List.append_assoc, List.flatMap_cons]

/-- The edges of a node are the sources of the links of its initial value, in order. -/
theorem edges_outward_references (nodes : List String) (links : List Link) (node : String) :
    (references nodes links).outward.edges node = links.flatMap fun link =>
      if link.kind = .initial ∧ link.target = node then [link.source] else [] := by
  rw [references, foldl_add_row (fun r => r.outward.edges node) _
    (fun r link => r.edges_outward_add link node), edges_bare, List.nil_append]

theorem edges_inward_references (nodes : List String) (links : List Link) (node : String) :
    (references nodes links).inward.edges node = links.flatMap fun link =>
      if link.kind = .initial ∧ link.source = node then [link.target] else [] := by
  rw [references, foldl_add_row (fun r => r.inward.edges node) _
    (fun r link => r.edges_inward_add link node), edges_bare, List.nil_append]

theorem refers_cons_iff {link : Link} {links : List Link} {node other : String} :
    Refers (link :: links) node other ↔
      link.kind = .initial ∧ link.target = node ∧ link.source = other ∨ Refers links node other := by
  obtain ⟨source, target, kind⟩ := link
  rw [Refers, List.mem_cons, Link.mk.injEq, Refers]
  grind

/-- The nodes are those that are given and both ends of the links of initial values. -/
theorem mem_names_references {nodes : List String} {links : List Link} {node : String} :
    node ∈ (references nodes links).outward.names ↔
      node ∈ nodes ∨ ∃ other, Refers links node other ∨ Refers links other node := by
  have all : ∀ r : References, node ∈ (links.foldl .add r).outward.names ↔
      node ∈ r.outward.names ∨ ∃ other, Refers links node other ∨ Refers links other node := by
    induction links with
    | nil => simp [Refers]
    | cons link rest ih =>
      intro r
      simp only [List.foldl_cons, ih, References.mem_names_add, refers_cons_iff]
      grind
  rw [references, all, mem_names_bare]

/-- What is picked for each link of an initial value is as often there as the link. -/
theorem count_flatMap_row {picked : Link → List String} {wanted : Link} {name : String}
    (each : ∀ link, (picked link).count name = [link].count wanted) (links : List Link) :
    (links.flatMap picked).count name = links.count wanted := by
  induction links with
  | nil => rfl
  | cons link rest ih =>
    rw [List.flatMap_cons, List.count_append, ih, each, ← List.count_append]
    rfl

/-- Each link of an initial value is an edge of the outward view, as often as it is listed. -/
theorem count_outward_references (nodes : List String) (links : List Link) (node other : String) :
    ((references nodes links).outward.edges node).count other =
      links.count ⟨other, node, .initial⟩ := by
  rw [edges_outward_references]
  refine count_flatMap_row (fun link => ?_) links
  obtain ⟨source, target, kind⟩ := link
  by_cases h : target = node <;> by_cases initial : kind = .initial <;>
    simp [h, initial, List.count_singleton]

/-- Each link of an initial value is an edge of the inward view, as often as it is listed. -/
theorem count_inward_references (nodes : List String) (links : List Link) (node other : String) :
    ((references nodes links).inward.edges other).count node =
      links.count ⟨other, node, .initial⟩ := by
  rw [edges_inward_references]
  refine count_flatMap_row (fun link => ?_) links
  obtain ⟨source, target, kind⟩ := link
  by_cases h : source = other <;> by_cases initial : kind = .initial <;>
    simp [h, initial, List.count_singleton]

theorem balanced_references (nodes : List String) (links : List Link) (taken : List String) :
    Peeling.Balanced ⟨(references nodes links).inward, (references nodes links).outward, taken⟩ := by
  intro node other
  rw [count_inward_references, count_outward_references]

theorem edge_references (nodes : List String) (links : List Link) :
    (references nodes links).outward.Edge = Refers links := by
  funext node other
  rw [Graph.Edge, ← List.count_pos_iff, count_outward_references, List.count_pos_iff, Refers]

theorem Graph.edges_ne_nil_iff {graph : Graph} {node : String} :
    graph.edges node ≠ [] ↔ ∃ other, graph.Edge node other :=
  ⟨List.exists_mem_of_ne_nil _, fun ⟨_, edge⟩ => List.ne_nil_of_mem edge⟩

theorem Graph.mem_names_of_edges {graph : Graph} {node : String} (some_edge : graph.edges node ≠ []) :
    node ∈ graph.names := by
  by_contra missing
  exact some_edge (by rw [edges, Keyed.find?_eq_none_iff.2 missing, Option.getD_none])

/-- Where no node comes twice, the entries are the nodes with their edges. -/
theorem Graph.mem_iff {graph : Graph} (distinct : graph.names.Nodup) {node : String}
    {row : List String} : (node, row) ∈ graph ↔ node ∈ graph.names ∧ graph.edges node = row := by
  constructor
  · intro entry
    have found := Keyed.find?_of_mem distinct entry
    exact ⟨Keyed.mem_names_iff.2 ⟨row, found⟩, by rw [edges, found, Option.getD_some]⟩
  · rintro ⟨known, rfl⟩
    obtain ⟨row, found⟩ := Keyed.mem_names_iff.1 known
    rw [edges, found, Option.getD_some]
    exact Keyed.mem_of_find? found

/-- No node comes twice in the outward view. -/
theorem nodup_outward_references (nodes : List String) (links : List Link) :
    (references nodes links).outward.names.Nodup := by
  refine List.foldlRecOn (motive := fun r : References => r.outward.names.Nodup) _ _ ?_ ?_
  · exact List.foldlRecOn (motive := fun graph : Graph => graph.names.Nodup) _ _ List.nodup_nil
      fun _ distinct _ _ => Keyed.nodup_names_put distinct ..
  · intro r distinct link _
    unfold References.add
    split
    · exact Keyed.nodup_names_put (Keyed.nodup_names_put distinct ..) ..
    · exact distinct

/-! ## What is left when nothing is ready -/

/-- In a settled peeling whoever still refers to others is referred to by such a node. Walking
back from one to the next never ends, so among finitely many nodes it runs into a cycle, from which
the way leads back to where the walk began. -/
theorem exists_cycle_of_edges {p : Peeling} (balanced : p.Balanced) (settled : ∀ node, ¬ p.Ready node)
    {node : String} (left : p.outward.edges node ≠ []) :
    ∃ start, Relation.TransGen p.outward.Edge start start ∧
      Relation.ReflTransGen p.outward.Edge start node := by
  by_contra none
  let before (source target : String) : Prop :=
    Relation.TransGen p.outward.Edge source target ∧ Relation.ReflTransGen p.outward.Edge target node
  have strict : IsStrictOrder String before :=
    { irrefl := fun start cycle => none ⟨start, cycle⟩
      trans := fun _ _ _ first second => ⟨first.1.trans second.1, second.2⟩ }
  let remaining : Set String :=
    {source | p.outward.edges source ≠ [] ∧ Relation.ReflTransGen p.outward.Edge source node}
  have finite : remaining.Finite :=
    (List.finite_toSet p.outward.names).subset fun _ left => Graph.mem_names_of_edges left.1
  obtain ⟨⟨first, referring, reaches⟩, -, least⟩ :=
    (finite.wellFoundedOn (r := before)).has_min Set.univ ⟨⟨node, left, .refl⟩, trivial⟩
  have referred : p.inward.edges first ≠ [] := fun unreferred =>
    settled first ⟨unreferred, referring⟩
  obtain ⟨source, back⟩ := Graph.edges_ne_nil_iff.1 referred
  have edge := balanced.edge_inward_iff.1 back
  exact least ⟨source, List.ne_nil_of_mem edge, reaches.head edge⟩ trivial ⟨.single edge, reaches⟩

/-! ## What peeling finds out -/

/-- There is a cycle just if a node has edges left. -/
theorem Peeled.hasCycle_iff {p : Peeled} (distinct : p.rest.names.Nodup) :
    p.hasCycle = true ↔ ∃ node, p.rest.edges node ≠ [] := by
  simp only [hasCycle, List.any_eq_true, Bool.not_eq_true', List.isEmpty_eq_false_iff]
  constructor
  · rintro ⟨⟨node, row⟩, entry, some_edge⟩
    obtain ⟨-, rfl⟩ := (Graph.mem_iff distinct).1 entry
    exact ⟨node, some_edge⟩
  · rintro ⟨node, some_edge⟩
    have entry := (Graph.mem_iff distinct).2 ⟨Graph.mem_names_of_edges some_edge, rfl⟩
    exact ⟨(node, _), entry, some_edge⟩

/-- What peeling finds out about references. -/
def References.peeled (r : References) : Peeled :=
  peel r.inward r.outward

section Links

variable {nodes : List String} {links : List Link}

/-- An order that has every node after those it refers to admits no cycle among its nodes. -/
theorem Peeling.Ordered.before_of_transGen {p : Peeling} {outward : Graph}
    (ordered : p.Ordered outward) {node other : String} (known : other ∈ p.taken)
    (path : Relation.TransGen outward.Edge node other) :
    node ∈ p.taken ∧ p.taken.idxOf other < p.taken.idxOf node := by
  induction path using Relation.TransGen.head_induction_on with
  | single edge => exact ordered other known _ edge
  | head edge _ ih =>
    obtain ⟨middle_taken, behind⟩ := ih
    obtain ⟨taken, further⟩ := ordered _ middle_taken _ edge
    exact ⟨taken, Nat.lt_trans behind further⟩

theorem names_rest :
    (references nodes links).peeled.rest.names = (references nodes links).outward.names :=
  (Peeling.peels_settle _ _).names

/-- A node that has been taken has lost its edges, and every other one has them all. -/
theorem edges_rest (node : String) :
    (references nodes links).peeled.rest.edges node =
      if node ∈ (references nodes links).peeled.order then []
      else (references nodes links).outward.edges node :=
  (Peeling.peels_settle _ _).edges node

theorem nodup_rest : (references nodes links).peeled.rest.names.Nodup := by
  rw [names_rest]
  exact nodup_outward_references nodes links

theorem hasCycle_rest_iff :
    (references nodes links).peeled.hasCycle = true ↔
      ∃ node, (references nodes links).peeled.rest.edges node ≠ [] :=
  Peeled.hasCycle_iff nodup_rest

/-- A node is taken just if it refers to others, unless edges are left. -/
theorem mem_order_references_iff (done : (references nodes links).peeled.hasCycle = false)
    {node : String} :
    node ∈ (references nodes links).peeled.order ↔ ∃ other, Refers links node other := by
  rw [← edge_references nodes, ← Graph.edges_ne_nil_iff]
  constructor
  · exact (Peeling.peels_settle _ _).referring node
  · intro some_edge
    by_contra left
    rw [Bool.eq_false_iff, Ne, hasCycle_rest_iff] at done
    exact done ⟨node, by rwa [edges_rest, if_neg left]⟩

/-- A node keeps its edges just if it has some and is on a cycle, or is referred to from one. -/
theorem edges_rest_ne_nil_iff {node : String} :
    (references nodes links).peeled.rest.edges node ≠ [] ↔
      (∃ other, Refers links node other) ∧ BelowCycle links node := by
  have balanced := balanced_references nodes links []
  have kept : ∀ source target, Graph.Edge (references nodes links).peeled.rest source target →
      Refers links source target := fun source target edge => by
    rw [← edge_references nodes]
    exact ((Peeling.peels_settle _ _).edge_iff.1 edge).2
  constructor
  · intro left
    obtain ⟨other, edge⟩ := Graph.edges_ne_nil_iff.1 left
    obtain ⟨start, cycle, way⟩ := exists_cycle_of_edges (Peeling.balanced_settle balanced)
      (Peeling.not_ready_settle _) left
    exact ⟨⟨other, kept _ _ edge⟩, start, Relation.TransGen.mono kept _ _ cycle,
      Relation.ReflTransGen.mono kept _ _ way⟩
  · rintro ⟨⟨other, refers⟩, start, cycle, way⟩ none_left
    rw [← edge_references nodes] at refers cycle way
    -- with its edges gone the node has been taken, and before it all from where it can be reached
    have ordered := Peeling.ordered_settle balanced
    have taken : node ∈ (references nodes links).peeled.order := by
      by_contra untaken
      rw [edges_rest, if_neg untaken] at none_left
      exact List.ne_nil_of_mem refers none_left
    have start_taken : start ∈ (references nodes links).peeled.order := by
      rcases Relation.reflTransGen_iff_eq_or_transGen.1 way with rfl | path
      · exact taken
      · exact (ordered.before_of_transGen taken path).1
    exact Nat.lt_irrefl _ (ordered.before_of_transGen start_taken cycle).2

/-- What is left is the part of the graph on and below its cycles, with all its edges. -/
theorem mem_residual_iff {node : String} {row : List String} :
    (node, row) ∈ (references nodes links).peeled.residual ↔
      (node, row) ∈ (references nodes links).outward ∧ row ≠ [] ∧ BelowCycle links node := by
  simp only [Peeled.residual, Graph.withEdges, List.mem_filter, Bool.not_eq_true',
    List.isEmpty_eq_false_iff, Graph.mem_iff nodup_rest, names_rest,
    Graph.mem_iff (nodup_outward_references nodes links)]
  have whole : (references nodes links).peeled.rest.edges node ≠ [] →
      (references nodes links).peeled.rest.edges node =
        (references nodes links).outward.edges node := by
    intro left
    rw [edges_rest] at left ⊢
    exact if_neg fun taken => left (if_pos taken)
  constructor
  · rintro ⟨⟨known, rfl⟩, left⟩
    exact ⟨⟨known, (whole left).symm⟩, left, (edges_rest_ne_nil_iff.1 left).2⟩
  · rintro ⟨⟨known, rfl⟩, some_edge, below⟩
    have refers := Graph.edges_ne_nil_iff.1 some_edge
    rw [edge_references] at refers
    have left : (references nodes links).peeled.rest.edges node ≠ [] :=
      edges_rest_ne_nil_iff.2 ⟨refers, below⟩
    exact ⟨⟨known, whole left⟩, some_edge⟩

/-- Peeling leaves edges exactly if some node refers to itself through others. -/
theorem hasCycle_references_iff :
    (references nodes links).peeled.hasCycle = true ↔ Circular links := by
  simp only [hasCycle_rest_iff, edges_rest_ne_nil_iff]
  constructor
  · rintro ⟨-, -, start, cycle, -⟩
    exact ⟨start, cycle⟩
  · rintro ⟨start, cycle⟩
    obtain ⟨other, refers, -⟩ := Relation.TransGen.head'_iff.1 cycle
    exact ⟨start, ⟨other, refers⟩, start, cycle, .refl⟩

theorem nodup_order_references : (references nodes links).peeled.order.Nodup :=
  (Peeling.peels_settle (references nodes links).inward (references nodes links).outward).distinct

/-- In the order a node stands behind every node it refers to. -/
theorem order_references_before {node other : String} (refers : Refers links node other)
    (known : other ∈ (references nodes links).peeled.order) :
    (references nodes links).peeled.order.idxOf other <
      (references nodes links).peeled.order.idxOf node := by
  rw [← edge_references nodes] at refers
  exact (Peeling.ordered_settle (balanced_references nodes links []) other known node refers).2

/-- Peeling finds a cycle exactly if there is one, and otherwise an order of all nodes that refer
to others. The links may repeat themselves, point from a node to itself and name anything. -/
theorem peeled_references (nodes : List String) (links : List Link) :
    ((references nodes links).peeled.hasCycle = true ↔ Circular links) ∧
      (¬ Circular links →
        (references nodes links).peeled.order.Nodup ∧
        (∀ node, node ∈ (references nodes links).peeled.order ↔ ∃ other, Refers links node other) ∧
        ∀ node other, Refers links node other → other ∈ (references nodes links).peeled.order →
          (references nodes links).peeled.order.idxOf other <
            (references nodes links).peeled.order.idxOf node) := by
  refine ⟨hasCycle_references_iff, fun acyclic => ⟨nodup_order_references, fun node => ?_, ?_⟩⟩
  · exact mem_order_references_iff (Bool.eq_false_iff.2 (mt hasCycle_references_iff.1 acyclic))
  · exact fun node other => order_references_before

end Links

end StockFlow.Reference
