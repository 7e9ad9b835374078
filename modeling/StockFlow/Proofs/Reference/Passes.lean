import StockFlow.Proofs.Reference.Cycle

/-!
# Passes of peeling

Peeling goes over all nodes again as long as a pass takes a node away. Each such pass leaves fewer
nodes with edges, so there is at most one pass more than there are such nodes at first
(`Peeling.exists_passes`). Nothing in this asks that the two views agree: edges may be missing on
either side, come several times or lead to unknown nodes, and what is left when peeling ends is
still accounted for edge by edge (`peel_any`).
-/

namespace StockFlow.Reference

namespace Peeling

/-- The passes of peeling: one follows on each that takes a node away, and one that takes none away
is the last. -/
inductive Passes : Peeling → Nat → Peeling → Prop where
  | last {p : Peeling} : p.sweep.taken = p.taken → Passes p 1 p.sweep
  | more {p last : Peeling} {k : Nat} : p.sweep.taken ≠ p.taken → Passes p.sweep k last →
      Passes p (k + 1) last

/-- A node that is taken away is one less of those that are left. -/
theorem length_taken_take {p : Peeling} {node : String} (ready : p.Ready node) :
    (p.take node).taken.length + (p.take node).remaining = p.taken.length + p.remaining := by
  have fewer := length_withEdges_put ready.2
  simp only [take, List.length_cons, remaining]
  omega

theorem length_taken_sweep (p : Peeling) :
    p.sweep.taken.length + p.sweep.remaining = p.taken.length + p.remaining := by
  apply sweep_induct (motive := fun q =>
    q.taken.length + q.remaining = p.taken.length + p.remaining) rfl
  intro q node same ready
  rw [length_taken_take ready, same]

/-- A pass takes nodes away just if fewer are left after it. -/
theorem taken_sweep_ne_iff (p : Peeling) :
    p.sweep.taken ≠ p.taken ↔ p.sweep.remaining < p.remaining := by
  have both := length_taken_sweep p
  constructor
  · intro differ
    rcases foldl_visit_cases p.outward.names p with ⟨unchanged, -⟩ | less
    · exact absurd (congrArg taken unchanged) differ
    · exact less
  · intro less same
    rw [same] at both
    omega

/-- Peeling ends, after at most one pass more than there are nodes with edges. -/
theorem exists_passes (p : Peeling) : ∃ k, Passes p k p.settle ∧ k ≤ p.remaining + 1 := by
  induction p using settle.induct with
  | case1 p next less ih =>
    simp only [next] at less ih
    obtain ⟨k, passes, bound⟩ := ih
    refine ⟨k + 1, ?_, by omega⟩
    rw [settle, if_pos less]
    exact .more ((taken_sweep_ne_iff p).2 less) passes
  | case2 p next stuck =>
    simp only [next] at stuck
    refine ⟨1, ?_, by omega⟩
    rw [settle, if_neg stuck]
    exact .last (not_not.1 (mt (taken_sweep_ne_iff p).1 stuck))

/-! ## What is left -/

/-- What is left of the edges that lead to nodes: all that lead there from nodes not taken, and of
those from nodes taken as many as their own rows do not list. -/
def Accounted (inward outward : Graph) (p : Peeling) : Prop :=
  ∀ node other, (p.inward.edges node).count other = (inward.edges node).count other -
    if other ∈ p.taken then (outward.edges other).count node else 0

theorem Accounted.take {inward outward : Graph} {p : Peeling}
    (accounted : p.Accounted inward outward) (peels : Peels outward p) {node : String}
    (ready : p.Ready node) : (p.take node).Accounted inward outward := by
  have fresh := peels.not_mem_of_ready ready
  have row : p.outward.edges node = outward.edges node := by
    rw [peels.edges, if_neg fresh]
  intro target other
  rw [count_inward_take, accounted target other, row]
  by_cases here : other = node
  · subst here
    simp [Peeling.take, fresh]
  · simp [Peeling.take, here]

theorem accounted_settle (inward outward : Graph) :
    (settle ⟨inward, outward, []⟩).Accounted inward outward := by
  have start : Accounted inward outward ⟨inward, outward, []⟩ := by
    intro node other
    simp
  have step : ∀ (p : Peeling) node, Peels outward p ∧ p.Accounted inward outward → p.Ready node →
      Peels outward (p.take node) ∧ (p.take node).Accounted inward outward := by
    rintro p node ⟨peels, accounted⟩ ready
    exact ⟨peels.take ready, accounted.take peels ready⟩
  exact (settle_induct ⟨.start inward outward, start⟩ step).2

/-- Where no node comes twice, each entry is a node with its edges. -/
theorem Graph.eq_map_edges {graph : Graph} (distinct : graph.names.Nodup) :
    graph = graph.names.map fun node => (node, graph.edges node) := by
  have each : ∀ entry ∈ graph, entry = (entry.1, graph.edges entry.1) := by
    rintro ⟨node, row⟩ listed
    rw [((Graph.mem_iff distinct).1 listed).2]
  rw [Keyed.names, List.map_map]
  conv_lhs => rw [← List.map_id graph]
  exact List.map_congr_left each

/-- The nodes stay where they stood; those taken have lost their rows. -/
theorem Peels.outward_eq {outward : Graph} {p : Peeling} (peels : Peels outward p)
    (distinct : outward.names.Nodup) :
    p.outward = outward.map fun (node, row) => (node, if node ∈ p.taken then [] else row) := by
  have kept : p.outward.names.Nodup := by rwa [peels.names]
  rw [Graph.eq_map_edges kept, peels.names, Keyed.names, List.map_map]
  apply List.map_congr_left
  rintro ⟨node, row⟩ listed
  have own := ((Graph.mem_iff distinct).1 listed).2
  simp only [Function.comp_apply, peels.edges, own]

theorem Peels.edges_ne_nil_iff {outward : Graph} {p : Peeling} (peels : Peels outward p)
    {node : String} : p.outward.edges node ≠ [] ↔ outward.edges node ≠ [] ∧ node ∉ p.taken := by
  rw [peels.edges]
  by_cases taken : node ∈ p.taken <;> simp [taken]

end Peeling

/-- Whatever the two views of a graph are, if no node comes twice in the outward one: peeling ends
after at most one pass more than there are nodes with edges; the order holds no node twice and only
nodes with edges; what is left are the nodes as they stood, those in the order without edges and
every other one with all of its edges; there is a cycle just if a node with edges is not in the
order, and every such node is still referred to. -/
theorem peel_any (inward outward : Graph) (distinct : outward.names.Nodup) :
    ∃ k last, Peeling.Passes ⟨inward, outward, []⟩ k last ∧ k ≤ outward.withEdges.length + 1 ∧
      peel inward outward = ⟨last.outward, last.taken⟩ ∧
      last.taken.Nodup ∧ (∀ node ∈ last.taken, outward.edges node ≠ []) ∧
      last.outward = outward.map (fun (node, row) =>
        (node, if node ∈ last.taken then [] else row)) ∧
      ((peel inward outward).hasCycle = true ↔
        ∃ node, outward.edges node ≠ [] ∧ node ∉ last.taken) ∧
      (∀ node, outward.edges node ≠ [] → node ∉ last.taken → last.inward.edges node ≠ []) ∧
      last.Accounted inward outward := by
  have peels := Peeling.peels_settle inward outward
  obtain ⟨k, passes, bound⟩ := Peeling.exists_passes ⟨inward, outward, []⟩
  refine ⟨k, _, passes, bound, rfl, peels.distinct, peels.referring, peels.outward_eq distinct, ?_,
    ?_, Peeling.accounted_settle inward outward⟩
  · simp only [← peels.edges_ne_nil_iff]
    refine Peeled.hasCycle_iff (p := peel inward outward) ?_
    show (Peeling.settle _).outward.names.Nodup
    rwa [peels.names]
  · intro node referring left unreferred
    -- with nobody referring to it the node would be ready
    exact Peeling.not_ready_settle _ node
      ⟨unreferred, peels.edges_ne_nil_iff.2 ⟨referring, left⟩⟩

/-- Two views that disagree: `a` lists its edge to `b` twice and `b` has it once, the edge from `e`
to `b` is known to `b` alone, and `d` alone knows of its edges, one of them to an unknown node. -/
def lopsidedOutward : Graph :=
  [("a", ["b", "b"]), ("b", ["c"]), ("c", []), ("d", ["b", "z"])]

def lopsidedInward : Graph :=
  [("b", ["a", "e"]), ("c", ["b"])]

/-- Both `a` and `d` are taken, `b` is still referred to from `e`. -/
theorem peel_any_lopsided :
    lopsidedOutward.names.Nodup ∧
      peel lopsidedInward lopsidedOutward =
        ⟨[("a", []), ("b", ["c"]), ("c", []), ("d", [])], ["d", "a"]⟩ ∧
      ∃ k last, Peeling.Passes ⟨lopsidedInward, lopsidedOutward, []⟩ k last ∧ k ≤ 4 ∧
        last.taken = ["d", "a"] ∧ (last.inward.edges "b").count "e" = 1 := by
  have distinct : lopsidedOutward.names.Nodup := by decide
  have found : peel lopsidedInward lopsidedOutward =
      ⟨[("a", []), ("b", ["c"]), ("c", []), ("d", [])], ["d", "a"]⟩ := by decide +kernel
  obtain ⟨k, last, passes, bound, same, -, -, -, -, -, accounted⟩ :=
    peel_any lopsidedInward lopsidedOutward distinct
  have taken : last.taken = ["d", "a"] := (congrArg Peeled.order (same.symm.trans found) :)
  refine ⟨distinct, found, k, last, passes, bound, taken, ?_⟩
  rw [accounted, taken]
  decide

end StockFlow.Reference
