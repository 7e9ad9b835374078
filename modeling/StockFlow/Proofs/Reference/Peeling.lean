import Mathlib.Data.List.Basic
import StockFlow.Reference.Order

/-!
# Peeling a reference graph

What peeling keeps, whatever graph it starts from, and what it has reached when it settles: a
visit takes a node away just if it is ready, so an invariant of `take` is one of the whole
(`settle_induct`), and a settled peeling has no ready node (`not_ready_settle`). Between two views
that agree, the agreement is such an invariant (`Balanced`), and the nodes taken are then taken in
an order that has each after those that refer to it (`Peels.before`).
-/

namespace StockFlow.Reference

/-- One node has an edge to another. -/
abbrev Graph.Edge (graph : Graph) (node other : String) : Prop :=
  other ∈ graph.edges node

namespace Peeling

/-- Nobody refers to the node any more, but it refers to others. -/
def Ready (p : Peeling) (node : String) : Prop :=
  p.inward.edges node = [] ∧ p.outward.edges node ≠ []

/-- The peeling once a node is taken away with its edges. -/
def take (p : Peeling) (node : String) : Peeling :=
  { inward := (p.outward.edges node).foldl (dropEdge node) p.inward
    outward := p.outward.put node []
    taken := node :: p.taken }

/-- All that a visit can do. -/
theorem visit_cases (p : Peeling) (node : String) :
    p.Ready node ∧ p.visit node = p.take node ∨ ¬ p.Ready node ∧ p.visit node = p := by
  have ready : ((p.inward.edges node).isEmpty && !(p.outward.edges node).isEmpty) = true ↔
      p.Ready node := by
    simp [Ready]
  unfold visit
  by_cases h : p.Ready node
  · exact .inl ⟨h, if_pos (ready.2 h)⟩
  · exact .inr ⟨h, if_neg (mt ready.1 h)⟩

theorem edges_outward_take (p : Peeling) (node other : String) :
    (p.take node).outward.edges other = if node = other then [] else p.outward.edges other :=
  Graph.edges_put ..

theorem edges_dropEdge (node other target : String) (inward : Graph) :
    (dropEdge node inward other).edges target =
      if other = target then (inward.edges target).erase node else inward.edges target := by
  unfold dropEdge
  split
  · rename_i rows found
    rw [Graph.edges_put]
    split
    · rename_i same
      rw [← same, Graph.edges, found, Option.getD_some]
    · rfl
  · rename_i missing
    split
    · rename_i same
      rw [← same, Graph.edges, missing]
      rfl
    · rfl

/-- Removing edges back to `node` one by one removes as many of each as are listed. -/
theorem count_foldl_dropEdge (node other target : String) (edges : List String) (inward : Graph) :
    ((edges.foldl (dropEdge node) inward).edges target).count other =
      (inward.edges target).count other - if other = node then edges.count target else 0 := by
  induction edges generalizing inward with
  | nil => simp
  | cons edge rest ih =>
    rw [List.foldl_cons, ih, edges_dropEdge, List.count_cons]
    by_cases here : edge = target
    · by_cases same : other = node
      · simp only [here, same, if_true, beq_self_eq_true, List.count_erase_self]
        omega
      · simp [here, same, List.count_erase_of_ne same]
    · simp [here]

theorem count_inward_take (p : Peeling) (node other target : String) :
    ((p.take node).inward.edges target).count other =
      (p.inward.edges target).count other -
        if other = node then (p.outward.edges node).count target else 0 :=
  count_foldl_dropEdge ..

/-! ## Passes -/

/-- What each visit keeps is kept by a pass. -/
theorem sweep_induct {motive : Peeling → Prop} {p : Peeling} (start : motive p)
    (take : ∀ p node, motive p → p.Ready node → motive (p.take node)) : motive p.sweep := by
  unfold sweep
  generalize p.outward.names = nodes
  induction nodes generalizing p with
  | nil => exact start
  | cons node rest ih =>
    rw [List.foldl_cons]
    apply ih
    rcases p.visit_cases node with ⟨ready, same⟩ | ⟨_, same⟩ <;> rw [same]
    · exact take p node start ready
    · exact start

/-- What taking a ready node keeps is kept by peeling. -/
theorem settle_induct {motive : Peeling → Prop} {p : Peeling} (start : motive p)
    (take : ∀ p node, motive p → p.Ready node → motive (p.take node)) : motive p.settle := by
  induction p using settle.induct with
  | case1 p next less ih =>
    rw [settle]
    simp only [next] at less ih
    rw [if_pos less]
    exact ih (sweep_induct start take)
  | case2 p next stuck =>
    rw [settle]
    simp only [next] at stuck
    rw [if_neg stuck]
    exact sweep_induct start take

theorem length_withEdges_put {graph : Graph} {node : String} (some_edge : graph.edges node ≠ []) :
    (Graph.withEdges (graph.put node [])).length + 1 = graph.withEdges.length := by
  induction graph with
  | nil => exact absurd rfl some_edge
  | cons head rest ih =>
    by_cases h : head.1 = node
    · have edges : head.2 ≠ [] := by simpa [Graph.edges, Keyed.find?, h] using some_edge
      simp [Keyed.put, h, Graph.withEdges, edges]
    · have deeper := ih (by simpa [Graph.edges, Keyed.find?, h] using some_edge)
      simp only [Keyed.put, h, if_false, Graph.withEdges, List.filter_cons] at deeper ⊢
      split <;> simp [← deeper]

theorem remaining_take {p : Peeling} {node : String} (ready : p.Ready node) :
    (p.take node).remaining < p.remaining := by
  have fewer := length_withEdges_put ready.2
  exact Nat.lt_of_succ_le (Nat.le_of_eq fewer)

/-- A pass finds no ready node and changes nothing, or there is less left after it. -/
theorem foldl_visit_cases (nodes : List String) (p : Peeling) :
    nodes.foldl visit p = p ∧ (∀ node ∈ nodes, ¬ p.Ready node) ∨
      (nodes.foldl visit p).remaining < p.remaining := by
  induction nodes generalizing p with
  | nil => exact .inl ⟨rfl, by simp⟩
  | cons node rest ih =>
    rw [List.foldl_cons]
    rcases p.visit_cases node with ⟨ready, same⟩ | ⟨idle, same⟩ <;> rw [same]
    · have less := remaining_take ready
      rcases ih (p.take node) with ⟨unchanged, _⟩ | further
      · exact .inr (by rwa [unchanged])
      · exact .inr (Nat.lt_trans further less)
    · rcases ih p with ⟨unchanged, none⟩ | further
      · exact .inl ⟨unchanged, List.forall_mem_cons.2 ⟨idle, none⟩⟩
      · exact .inr further

/-- Only a node of the outward view can be ready. -/
theorem Ready.mem_names {p : Peeling} {node : String} (ready : p.Ready node) :
    node ∈ p.outward.names := by
  by_contra missing
  have none := Keyed.find?_eq_none_iff.2 missing
  exact ready.2 (by rw [Graph.edges, none, Option.getD_none])

/-- Peeling goes on for as long as a node is ready. -/
theorem not_ready_settle (p : Peeling) (node : String) : ¬ p.settle.Ready node := by
  induction p using settle.induct with
  | case1 p next less ih =>
    simp only [next] at less ih
    rw [settle, if_pos less]
    exact ih
  | case2 p next stuck =>
    simp only [next] at stuck
    rw [settle, if_neg stuck]
    rcases foldl_visit_cases p.outward.names p with ⟨unchanged, idle⟩ | less
    · intro ready
      have ready : p.Ready node := by rwa [sweep, unchanged] at ready
      exact idle node ready.mem_names ready
    · exact absurd less stuck

/-! ## Invariants -/

/-- The two views hold the same edges, each as often in one as in the other. -/
def Balanced (p : Peeling) : Prop :=
  ∀ node other, (p.inward.edges other).count node = (p.outward.edges node).count other

theorem Balanced.take {p : Peeling} (balanced : p.Balanced) (node : String) :
    (p.take node).Balanced := by
  intro source target
  rw [count_inward_take, edges_outward_take, balanced source target]
  by_cases h : source = node
  · simp [h]
  · simp [h, Ne.symm h]

theorem Balanced.edge_inward_iff {p : Peeling} (balanced : p.Balanced) {node other : String} :
    p.inward.Edge other node ↔ p.outward.Edge node other := by
  rw [Graph.Edge, Graph.Edge, ← List.count_pos_iff, ← List.count_pos_iff, balanced]

/-- Peeling on the way from a graph whose outward view is `outward`. -/
structure Peels (outward : Graph) (p : Peeling) : Prop where
  names : p.outward.names = outward.names
  /-- A node loses all its edges at once, when it is taken. -/
  edges : ∀ node, p.outward.edges node = if node ∈ p.taken then [] else outward.edges node
  distinct : p.taken.Nodup
  referring : ∀ node ∈ p.taken, outward.edges node ≠ []

namespace Peels

variable {outward : Graph} {p : Peeling}

theorem start (inward outward : Graph) : Peels outward ⟨inward, outward, []⟩ where
  names := rfl
  edges node := by simp
  distinct := List.nodup_nil
  referring node h := by cases h

theorem not_mem_of_ready (peels : Peels outward p) {node : String} (ready : p.Ready node) :
    node ∉ p.taken := by
  intro taken
  exact ready.2 (by rw [peels.edges, if_pos taken])

theorem take (peels : Peels outward p) {node : String} (ready : p.Ready node) :
    Peels outward (p.take node) where
  names := by
    show (p.outward.put node []).names = outward.names
    rw [Keyed.names_put, if_pos ready.mem_names, peels.names]
  edges other := by
    show (p.take node).outward.edges other = if other ∈ node :: p.taken then [] else _
    rw [edges_outward_take, peels.edges]
    by_cases h : node = other
    · simp [h]
    · simp [h, Ne.symm h]
  distinct := List.nodup_cons.2 ⟨peels.not_mem_of_ready ready, peels.distinct⟩
  referring other h := by
    rcases List.mem_cons.1 h with rfl | h
    · have left := ready.2
      rwa [peels.edges, if_neg (peels.not_mem_of_ready ready)] at left
    · exact peels.referring other h

/-- What is left of a node's edges is nothing or all of them. -/
theorem edge_iff (peels : Peels outward p) {node other : String} :
    p.outward.Edge node other ↔ node ∉ p.taken ∧ outward.Edge node other := by
  rw [Graph.Edge, peels.edges]
  by_cases h : node ∈ p.taken <;> simp [h]

end Peels

/-- Each node taken comes before all that refer to it, which have been taken before. -/
def Ordered (outward : Graph) (p : Peeling) : Prop :=
  ∀ other ∈ p.taken, ∀ node, outward.Edge node other →
    node ∈ p.taken ∧ p.taken.idxOf other < p.taken.idxOf node

/-- Nobody is left to refer to a ready node, so whoever did has been taken. -/
theorem Ready.taken_of_refers {outward : Graph} {p : Peeling} {node : String} (ready : p.Ready node)
    (peels : Peels outward p) (balanced : p.Balanced) {source : String}
    (refers : outward.Edge source node) : source ∈ p.taken := by
  by_contra left
  have back := balanced.edge_inward_iff.2 (peels.edge_iff.2 ⟨left, refers⟩)
  rw [Graph.Edge, ready.1] at back
  cases back

theorem Ordered.take {outward : Graph} {p : Peeling} (ordered : p.Ordered outward)
    (peels : Peels outward p) (balanced : p.Balanced) {node : String} (ready : p.Ready node) :
    (p.take node).Ordered outward := by
  have fresh := peels.not_mem_of_ready ready
  intro other known source refers
  show source ∈ node :: p.taken ∧ (node :: p.taken).idxOf other < (node :: p.taken).idxOf source
  rcases List.mem_cons.1 known with rfl | known
  · have source_taken := ready.taken_of_refers peels balanced refers
    have differ : other ≠ source := by
      rintro rfl
      exact fresh source_taken
    refine ⟨List.mem_cons_of_mem _ source_taken, ?_⟩
    rw [List.idxOf_cons_self, List.idxOf_cons_ne _ differ]
    exact Nat.succ_pos _
  · obtain ⟨source_taken, before⟩ := ordered other known source refers
    have differ : node ≠ other := by
      rintro rfl
      exact fresh known
    have differ' : node ≠ source := by
      rintro rfl
      exact fresh source_taken
    refine ⟨List.mem_cons_of_mem _ source_taken, ?_⟩
    rw [List.idxOf_cons_ne _ differ, List.idxOf_cons_ne _ differ']
    exact Nat.succ_lt_succ before

/-! ## The settled peeling -/

section Settled

variable (inward outward : Graph)

theorem peels_settle : Peels outward (settle ⟨inward, outward, []⟩) :=
  settle_induct (.start inward outward) fun _ _ peels ready => peels.take ready

variable {inward outward} (balanced : Balanced ⟨inward, outward, []⟩)
include balanced

theorem balanced_settle : (settle ⟨inward, outward, []⟩).Balanced :=
  settle_induct balanced fun _ node balanced _ => balanced.take node

theorem ordered_settle : (settle ⟨inward, outward, []⟩).Ordered outward := by
  have step : ∀ (p : Peeling) node, Peels outward p ∧ p.Balanced ∧ p.Ordered outward →
      p.Ready node → Peels outward (p.take node) ∧ (p.take node).Balanced ∧
        (p.take node).Ordered outward := by
    rintro p node ⟨peels, balanced, ordered⟩ ready
    exact ⟨peels.take ready, balanced.take node, ordered.take peels balanced ready⟩
  have start : Ordered outward ⟨inward, outward, []⟩ := by
    intro other known
    cases known
  exact (settle_induct ⟨.start inward outward, balanced, start⟩ step).2.2

end Settled

end Peeling

end StockFlow.Reference
