import StockFlow.Proofs.Simulation.Footprint
import StockFlow.Proofs.Simulation.Runs

/-!
# Parts of a model that stand by themselves

Some stocks of a model may have nothing to do with the others: their formulas refer to each other
only, and so do the flows that touch them. They are a model of their own (`Model.part`), and what
the rest of the model does cannot be seen in them: each run of the whole is, as far as they are
concerned, a run of the part (`Model.run_part`). The rest may well look at the part.
-/

namespace StockFlow

open StockFlow.Reference

/-- The entries under some of the names. -/
def Keyed.within {β : Type} (inside : String → Bool) (entries : Keyed β) : Keyed β :=
  entries.filter fun entry => inside entry.1

theorem Keyed.find?_within {β : Type} (inside : String → Bool) (entries : Keyed β)
    (name : String) :
    (entries.within inside).find? name = if inside name then entries.find? name else none := by
  induction entries with
  | nil => simp [within, find?]
  | cons head rest ih =>
    obtain ⟨other, entry⟩ := head
    rw [within, List.filter_cons]
    change find? name (if inside other then (other, entry) :: within inside rest
      else within inside rest) = _
    by_cases part : inside other
    · rw [if_pos part, find?, find?, ih]
      by_cases here : other = name
      · rw [if_pos here, if_pos here, if_pos (here ▸ part)]
      · rw [if_neg here, if_neg here]
    · rw [if_neg part, ih, find?]
      by_cases here : other = name
      · rw [if_neg (here ▸ part), if_neg (here ▸ part)]
      · rw [if_neg here]

/-- The same stocks with the same quantities, maybe in another order. -/
def Snapshot.Same {α : Type} (values values' : Snapshot α) : Prop :=
  ∀ name, values.find? name = values'.find? name

namespace Model

variable {α : Type}

/-- The model of some of the stocks, with the flows between them. -/
def part (m : Model α) (inside : String → Bool) : Model α where
  name := m.name
  stocks := m.stocks.filter fun stock => inside stock.name
  flows := m.flows.filter fun flow => inside flow.source && inside flow.destination

/-- Some of the stocks stand by themselves: their formulas refer to no others, and a flow that
touches them at one end does so at the other end, and by all that its rate refers to. -/
structure SelfContained (m : Model α) (inside : String → Bool) : Prop where
  initial : ∀ stock ∈ m.stocks, inside stock.name →
    ∀ name ∈ stock.initial.references, inside name
  maximum : ∀ stock ∈ m.stocks, inside stock.name →
    ∀ name ∈ stock.maximum.references, inside name
  flow : ∀ flow ∈ m.flows, inside flow.source ∨ inside flow.destination →
    inside flow.source ∧ inside flow.destination ∧
      ∀ name ∈ flow.rule.formula.references, inside name

variable {m : Model α} {inside : String → Bool} {order : List String}

theorem mem_stocks_part {stock : Stock} :
    stock ∈ (m.part inside).stocks ↔ stock ∈ m.stocks ∧ inside stock.name := by
  simp [part]

theorem mem_flows_part {flow : Flow} :
    flow ∈ (m.part inside).flows ↔
      flow ∈ m.flows ∧ inside flow.source ∧ inside flow.destination := by
  simp [part]

theorem mem_stockNames_part {name : String} :
    name ∈ (m.part inside).stockNames ↔ name ∈ m.stockNames ∧ inside name := by
  simp only [stockNames, List.mem_map, mem_stocks_part]
  constructor
  · rintro ⟨stock, ⟨known, part⟩, rfl⟩
    exact ⟨⟨stock, known, rfl⟩, part⟩
  · rintro ⟨⟨stock, known, rfl⟩, part⟩
    exact ⟨stock, ⟨known, part⟩, rfl⟩

theorem stock?_part {name : String} (part : inside name) :
    (m.part inside).stock? name = m.stock? name := by
  unfold stock? Model.part
  rw [List.find?_filter]
  congr 1
  funext stock
  by_cases same : stock.name = name
  · simp [same, part]
  · simp [same]

/-! ## Validation of a part -/

theorem SelfContained.closed_part (whole : m.SelfContained inside) (closed : m.Closed) :
    (m.part inside).Closed where
  initial := by
    intro stock listed name refers
    obtain ⟨known, part⟩ := mem_stocks_part.1 listed
    exact mem_stockNames_part.2 ⟨closed.initial stock known refers,
      whole.initial stock known part name refers⟩
  maximum := by
    intro stock listed name refers
    obtain ⟨known, part⟩ := mem_stocks_part.1 listed
    exact mem_stockNames_part.2 ⟨closed.maximum stock known refers,
      whole.maximum stock known part name refers⟩
  rate := by
    intro flow listed name refers
    obtain ⟨known, drained, -⟩ := mem_flows_part.1 listed
    obtain ⟨-, -, rate⟩ := whole.flow flow known (.inl drained)
    exact mem_stockNames_part.2 ⟨closed.rate flow known refers, rate name refers⟩

/-- A cycle of the part would be one of the whole. -/
theorem circular_of_part (circular : Circular (m.part inside).links) : Circular m.links := by
  obtain ⟨node, cycle⟩ := circular
  refine ⟨node, Relation.TransGen.mono (fun node other refers => ?_) _ _ cycle⟩
  obtain ⟨stock, listed, named, mentioned⟩ := refers_links_iff.1 refers
  exact refers_links_iff.2 ⟨stock, (mem_stocks_part.1 listed).1, named, mentioned⟩

theorem SelfContained.exists_order (whole : m.SelfContained inside) (valid : m.order = .ok order) :
    ∃ order', (m.part inside).order = .ok order' := by
  obtain ⟨closed, acyclic, -⟩ := order_eq_ok_iff.1 valid
  have acyclic' : (m.part inside).references.peeled.hasCycle = false := by
    rw [Bool.eq_false_iff] at acyclic ⊢
    intro cyclic
    exact acyclic (hasCycle_references_iff.2 (circular_of_part (hasCycle_references_iff.1 cyclic)))
  exact ⟨_, order_eq_ok_iff.2 ⟨whole.closed_part closed, acyclic', rfl⟩⟩

/-! ## Runs of a part -/

variable [Quantity α] {overrides : Overrides α} {values values' next : Snapshot α}

theorem initialValue_part {name : String} (part : inside name) :
    State.initialValue (m.part inside) (overrides.within inside) values name =
      State.initialValue m overrides values name := by
  unfold State.initialValue Model.stock
  rw [Keyed.find?_within, if_pos part, stock?_part part]

/-- The whole is initialized in another order, but each stock of the part from the same ones. -/
theorem SelfContained.exists_start (whole : m.SelfContained inside) {first : Snapshot α}
    (started : State.start m overrides = .ok ⟨m, 0, first⟩) :
    ∃ first', State.start (m.part inside) (overrides.within inside) =
      .ok ⟨m.part inside, 0, first'⟩ ∧ Snapshot.Same first' (first.within inside) := by
  obtain ⟨known, order, _, valid, filled, ⟨⟩⟩ := State.start_eq_ok_iff.1 started
  obtain ⟨order', valid'⟩ := whole.exists_order valid
  have stocks : ∀ name, name ∈ first.names ↔ name ∈ m.stockNames := by
    intro name
    rw [State.mem_names_of_fill filled, State.mem_sequence_iff valid]
  have inner : ∀ name ∈ State.sequence (m.part inside) order',
      name ∈ m.stockNames ∧ inside name := by
    intro name listed
    exact mem_stockNames_part.1 ((State.mem_sequence_iff valid').1 listed)
  -- what the whole starts with solves the equations of the part, too
  have settled : ∀ name ∈ State.sequence (m.part inside) order',
      State.initialValue (m.part inside) (overrides.within inside) first name =
        Snapshot.entry first name := by
    intro name listed
    obtain ⟨declared, part⟩ := inner name listed
    rw [initialValue_part part]
    exact State.settled_of_fill (State.inOrder_sequence valid) filled name
      ((State.mem_sequence_iff valid).2 declared)
  obtain ⟨first', filled', agree⟩ := State.exists_fill_of_settled (State.inOrder_sequence valid')
    (fun name listed => (stocks name).2 (inner name listed).1) settled
  refine ⟨first', State.start_eq_ok_iff.2 ⟨?_, order', first', valid', filled', rfl⟩, ?_⟩
  · intro name listed
    obtain ⟨given, found⟩ := Keyed.mem_names_iff.1 listed
    rw [Keyed.find?_within] at found
    split at found
    · rename_i part
      exact mem_stockNames_part.2 ⟨known (Keyed.mem_names_iff.2 ⟨given, found⟩), part⟩
    · cases found
  · intro name
    rw [Keyed.find?_within]
    by_cases listed : name ∈ (m.part inside).stockNames
    · rw [if_pos (mem_stockNames_part.1 listed).2]
      exact agree name ((State.mem_sequence_iff valid').2 listed)
    · have absent : name ∉ first'.names := by
        rwa [State.mem_names_of_fill filled', State.mem_sequence_iff valid']
      rw [Keyed.find?_eq_none_iff.2 absent]
      split
      · rename_i part
        refine (Keyed.find?_eq_none_iff.2 fun there => listed ?_).symm
        exact mem_stockNames_part.2 ⟨(stocks name).1 there, part⟩
      · rfl

omit [Quantity α] in
/-- What a flow of the part reads is in the part. -/
theorem SelfContained.reads (whole : m.SelfContained inside) {flow : Flow} (listed : flow ∈ m.flows)
    (touched : inside flow.source ∨ inside flow.destination) :
    ∀ name ∈ m.reads flow, inside name := by
  obtain ⟨drained, filled, rate⟩ := whole.flow flow listed touched
  intro name read
  simp only [Model.reads, List.cons_append, List.mem_cons, List.mem_append] at read
  rcases read with rfl | rfl | refers | refers
  · exact drained
  · exact filled
  · exact rate name refers
  · cases found : m.stock? flow.destination with
    | none => simp [found] at refers
    | some stock =>
      rw [found, Option.map_some, Option.getD_some] at refers
      have named := stock?_name found
      exact whole.maximum stock (List.mem_of_find?_eq_some found) (named ▸ filled) name refers

/-- In a round of the whole the flows of the part have their turns in the same order, and the others
leave alone what these look at. -/
theorem SelfContained.exists_round (whole : m.SelfContained inside) (round : m.Round values next)
    (same : Snapshot.Same values' (values.within inside)) :
    ∃ next', (m.part inside).Round values' next' ∧
      Snapshot.Same next' (next.within inside) := by
  obtain ⟨last, done, committed⟩ := round_iff.1 round
  have agree : Turn.AgreeOn inside ⟨values, []⟩ ⟨values', []⟩ := by
    refine ⟨fun name part => ?_, fun _ _ => rfl⟩
    rw [same name, Keyed.find?_within, if_pos part]
  have inner : ∀ flow ∈ m.flows.reverse, inside flow.source && inside flow.destination →
      m.stock? flow.destination = (m.part inside).stock? flow.destination ∧
        ∀ name ∈ m.reads flow, inside name := by
    intro flow listed kept
    obtain ⟨drained, filled⟩ := Bool.and_eq_true_iff.1 kept
    exact ⟨(stock?_part filled).symm, whole.reads (List.mem_reverse.1 listed) (.inl drained)⟩
  have outer : ∀ flow ∈ m.flows.reverse, ¬ (inside flow.source && inside flow.destination) →
      ¬ inside flow.source ∧ ¬ inside flow.destination := by
    intro flow listed dropped
    rw [← not_or]
    intro touched
    obtain ⟨drained, filled, -⟩ := whole.flow flow (List.mem_reverse.1 listed) touched
    exact dropped (Bool.and_eq_true_iff.2 ⟨drained, filled⟩)
  obtain ⟨last', done', agree'⟩ := agree.exists_applyAll_filter _ inner outer done
  rw [List.filter_reverse] at done'
  obtain ⟨next', committed', agree''⟩ := agree'.exists_commit done done' committed
  have round' : (m.part inside).Round values' next' := round_iff.2 ⟨last', done', committed'⟩
  refine ⟨next', round', fun name => ?_⟩
  rw [Keyed.find?_within]
  split
  · rename_i part
    exact (agree'' name part).symm
  · rename_i outside
    rw [Keyed.find?_eq_none_iff, round'.names_next, ← Keyed.find?_eq_none_iff, same name,
      Keyed.find?_within, if_neg outside]

/-- Some stocks of a validated model that stand by themselves make up a model that is validated, too,
and in every run of the whole model they have, snapshot by snapshot, the quantities that they have
in the run of this model alone, with those of the overrides that name them. -/
theorem run_part (valid : m.order = .ok order) (whole : m.SelfContained inside) :
    (∃ order', (m.part inside).order = .ok order') ∧
      ∀ rounds (overrides : Overrides α) snapshots, m.run rounds overrides = .ok snapshots →
        ∃ snapshots', (m.part inside).run rounds (overrides.within inside) = .ok snapshots' ∧
          snapshots.Forall₂ (fun values values' => Snapshot.Same values' (values.within inside))
            snapshots' := by
  refine ⟨whole.exists_order valid, fun rounds overrides snapshots ran => ?_⟩
  refine exists_run_of_round ?_ ?_ ran
  · intro first started
    exact whole.exists_start started
  · intro values next values' round same
    exact whole.exists_round round same

/-- Two pairs of stocks, declared in turns. The first pair stands by itself; what moves between the
stocks of the other depends on it. -/
def mingled : Model Exact where
  stocks := [
    { name := "rain", initial := .value (.whole "10") },
    { name := "spray", initial := .thenValue (.value (.reference "lake")) .times (.whole "2") },
    { name := "lake", initial := .thenValue (.value (.reference "rain")) .minus (.whole "4"),
      maximum := .thenValue (.value (.reference "rain")) .plus (.whole "3") },
    { name := "moss" }]
  flows := [
    ⟨"rain", "lake", ⟨.rate, .value (.whole "2")⟩⟩,
    ⟨"spray", "moss", ⟨.rate, .value (.reference "rain")⟩⟩,
    ⟨"lake", "rain", ⟨.leak, .value (.decimal "0.5")⟩⟩]

theorem run_mingled : mingled.run 2 [("spray", .ok (.finite 9)), ("rain", .ok (.finite 7))] = .ok [
    [("rain", .finite 7), ("moss", .finite 0), ("lake", .finite 3), ("spray", .finite 9)],
    [("rain", .finite 6), ("moss", .finite 7), ("lake", .finite 4), ("spray", .finite 2)],
    [("rain", .finite 6), ("moss", .finite 9), ("lake", .finite 4), ("spray", .finite 0)]] := by
  decide +kernel

theorem run_part_mingled :
    ∃ inside snapshots snapshots',
      mingled.run 2 [("spray", .ok (.finite 9)), ("rain", .ok (.finite 7))] = .ok snapshots ∧
      (mingled.part inside).stockNames = ["rain", "lake"] ∧
      (mingled.part inside).run 2 [("rain", .ok (.finite 7))] = .ok snapshots' ∧
      snapshots.Forall₂ (fun values values' => Snapshot.Same values' (values.within inside))
        snapshots' := by
  have valid : mingled.order = .ok ["lake", "spray"] := by decide +kernel
  have whole : mingled.SelfContained (["rain", "lake"].contains ·) :=
    ⟨by decide +kernel, by decide +kernel, by decide +kernel⟩
  obtain ⟨snapshots', ran, same⟩ := (run_part valid whole).2 _ _ _ run_mingled
  exact ⟨_, _, snapshots', run_mingled, by decide +kernel, ran, same⟩

end Model

end StockFlow
