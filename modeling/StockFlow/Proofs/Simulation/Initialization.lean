import StockFlow.Proofs.Builder.Invariant
import StockFlow.Proofs.Formula.Dependence
import StockFlow.Proofs.Model.Validation
import StockFlow.Quantity.Exact
import StockFlow.Simulation.State

/-!
# Initialization

Initialization evaluates each stock against the part of the snapshot that is filled in so far. It
goes through the stocks in a sequence that has each behind all that it refers to
(`inOrder_sequence`), so what it reads has its final quantity. The snapshot that comes out solves
the equations of the initial values, each read against all stocks at once, and is the only one that
does (`start_solution`).
-/

namespace StockFlow

open StockFlow.Reference

variable {α : Type}

theorem Snapshot.entry_eq_ok_iff {values : Snapshot α} {name : String} {x : α} :
    Snapshot.entry values name = .ok x ↔ values.find? name = some x := by
  unfold Snapshot.entry
  cases values.find? name <;> simp

/-- Each stock in a list comes after all that its initial value refers to. -/
def Model.InOrder (m : Model α) (names : List String) : Prop :=
  ∀ before name after, names = before ++ name :: after →
    ∀ stock, m.stock? name = some stock → stock.initial.references ⊆ before

theorem Model.InOrder.left {m : Model α} {names more : List String}
    (ordered : m.InOrder (names ++ more)) : m.InOrder names := by
  intro before name after split
  exact ordered before name (after ++ more) (by rw [split, List.append_assoc, List.cons_append])

/-- Nobody in a list refers to the last of it. -/
theorem Model.InOrder.references_subset {m : Model α} {names : List String} {last name : String}
    (ordered : m.InOrder (names ++ [last])) (listed : name ∈ names ++ [last]) {stock : Stock}
    (found : m.stock? name = some stock) : stock.initial.references ⊆ names := by
  rcases List.mem_append.1 listed with earlier | here
  · obtain ⟨before, after, split⟩ := List.append_of_mem earlier
    intro reference refers
    rw [split]
    exact List.mem_append_left _ (ordered.left before name after split stock found refers)
  · rw [List.mem_singleton.1 here] at found
    exact ordered names last [] rfl stock found

namespace State

variable {m : Model α} {order : List String}

theorem mem_sequence_iff (valid : m.order = .ok order) {name : String} :
    name ∈ sequence m order ↔ name ∈ m.stockNames := by
  obtain ⟨-, acyclic, rfl⟩ := Model.order_eq_ok_iff.1 valid
  simp only [sequence, List.mem_append, List.mem_filter, Bool.not_eq_true', List.contains_eq_mem,
    decide_eq_false_iff_not]
  constructor
  · rintro (⟨known, -⟩ | taken)
    · exact known
    · obtain ⟨other, refers⟩ := (mem_order_references_iff acyclic).1 taken
      obtain ⟨stock, known, rfl, -⟩ := Model.refers_links_iff.1 refers
      exact List.mem_map_of_mem known
  · intro known
    by_cases taken : name ∈ m.references.peeled.order
    · exact .inr taken
    · exact .inl ⟨known, taken⟩

theorem nodup_sequence (distinct : m.stockNames.Nodup) (valid : m.order = .ok order) :
    (sequence m order).Nodup := by
  obtain ⟨-, -, rfl⟩ := Model.order_eq_ok_iff.1 valid
  refine List.nodup_append.2 ⟨distinct.filter _, nodup_order_references, ?_⟩
  intro name left name' taken
  rintro rfl
  simp [taken] at left

/-- Stocks without references come first, the others in the order that peeling has found. -/
theorem idxOf_sequence_lt (valid : m.order = .ok order) {name reference : String}
    (refers : Refers m.links name reference) :
    (sequence m order).idxOf reference < (sequence m order).idxOf name := by
  obtain ⟨closed, acyclic, rfl⟩ := Model.order_eq_ok_iff.1 valid
  obtain ⟨stock, known, -, mentioned⟩ := Model.refers_links_iff.1 refers
  let first := m.stockNames.filter (!m.references.peeled.order.contains ·)
  have taken : name ∈ m.references.peeled.order := (mem_order_references_iff acyclic).2 ⟨_, refers⟩
  have behind : name ∉ first := by simp [first, taken]
  have listed : reference ∈ first ∨ reference ∈ m.references.peeled.order :=
    List.mem_append.1 ((mem_sequence_iff valid).2 (closed.initial stock known mentioned))
  show (first ++ m.references.peeled.order).idxOf reference < (first ++ _).idxOf name
  rw [List.idxOf_append_of_notMem behind]
  by_cases h : reference ∈ first
  · rw [List.idxOf_append_of_mem h]
    exact Nat.lt_add_right _ (List.idxOf_lt_length_iff.2 h)
  · rw [List.idxOf_append_of_notMem h]
    exact Nat.add_lt_add_left (order_references_before refers (listed.resolve_left h)) _

theorem inOrder_sequence (valid : m.order = .ok order) : m.InOrder (sequence m order) := by
  intro before name after split stock found reference refers
  have edge : Refers m.links name reference := Model.refers_links_iff.2
    ⟨stock, List.mem_of_find?_eq_some found, Model.stock?_name found, refers⟩
  have lt := idxOf_sequence_lt valid edge
  have here : (sequence m order).idxOf name < (before ++ [name]).length := by
    refine (List.IsPrefix.mem_iff_idxOf_lt_length ⟨after, ?_⟩ _).1 (by simp)
    rw [split, List.append_assoc, List.singleton_append]
  rw [List.length_append, List.length_singleton] at here
  exact (List.IsPrefix.mem_iff_idxOf_lt_length ⟨_, split.symm⟩ _).2 (by omega)

/-! ## Filling a snapshot -/

variable [Quantity α] {overrides : Overrides α}

/-- Only what the initial value of a stock refers to decides its initial quantity. -/
theorem initialValue_congr {values values' : Snapshot α} {name : String}
    (agree : ∀ stock, m.stock? name = some stock → ∀ reference ∈ stock.initial.references,
      values.find? reference = values'.find? reference) :
    initialValue m overrides values name = initialValue m overrides values' name := by
  unfold initialValue Model.stock
  cases overrides.find? name with
  | some given => rfl
  | none =>
    cases found : m.stock? name with
    | none => rfl
    | some stock => exact stock.initial.evalAt_congr (agree stock found)

theorem fill_snoc {names : List String} {name : String} {values' : Snapshot α}
    (filled : fill m overrides (names ++ [name]) [] = .ok values') :
    ∃ values x, fill m overrides names [] = .ok values ∧
      initialValue m overrides values name = .ok x ∧ values' = values.put name x := by
  rw [fill, List.foldlM_append] at filled
  obtain ⟨values, before, last⟩ := bind_eq_ok_iff.1 filled
  rw [List.foldlM_cons] at last
  obtain ⟨next, step, done⟩ := bind_eq_ok_iff.1 last
  obtain ⟨x, computed, put⟩ := bind_eq_ok_iff.1 step
  exact ⟨values, x, before, computed, (Except.ok.inj (put.trans done)).symm⟩

/-- A fill has the stocks that it goes through. -/
theorem mem_names_of_fill {names : List String} {values : Snapshot α}
    (filled : fill m overrides names [] = .ok values) {name : String} :
    name ∈ values.names ↔ name ∈ names := by
  induction names using List.reverseRecOn generalizing values with
  | nil => rw [← Except.ok.inj filled]; rfl
  | append_singleton names last ih =>
    obtain ⟨values, x, before, -, rfl⟩ := fill_snoc filled
    rw [Keyed.names_put, List.mem_append, List.mem_singleton, ← ih before]
    split
    · rename_i known
      exact ⟨.inl, fun listed => listed.elim id fun here => here ▸ known⟩
    · rw [List.mem_append, List.mem_singleton]

theorem names_of_fill {names : List String} {values : Snapshot α} (distinct : names.Nodup)
    (filled : fill m overrides names [] = .ok values) : values.names = names := by
  induction names using List.reverseRecOn generalizing values with
  | nil => exact Except.ok.inj filled ▸ rfl
  | append_singleton names last ih =>
    obtain ⟨values, x, before, -, rfl⟩ := fill_snoc filled
    obtain ⟨distinct, -, apart⟩ := List.nodup_append.1 distinct
    have fresh : last ∉ values.names := fun known =>
      apart last ((mem_names_of_fill before).1 known) last (by simp) rfl
    rw [Keyed.names_put, if_neg fresh, ih distinct before]

theorem nodup_names_of_fill {names : List String} {values : Snapshot α}
    (filled : fill m overrides names [] = .ok values) : values.names.Nodup := by
  induction names using List.reverseRecOn generalizing values with
  | nil => exact Except.ok.inj filled ▸ List.nodup_nil
  | append_singleton names last ih =>
    obtain ⟨values, x, before, -, rfl⟩ := fill_snoc filled
    exact Keyed.nodup_names_put (ih before) ..

/-- The order of the stocks does not depend on the quantities that they are filled in with. -/
theorem names_eq_of_fill {m' : Model α} {overrides' : Overrides α} {names : List String}
    {values values' : Snapshot α} (filled : fill m overrides names [] = .ok values)
    (filled' : fill m' overrides' names [] = .ok values') : values.names = values'.names := by
  induction names using List.reverseRecOn generalizing values values' with
  | nil => rw [← Except.ok.inj filled, ← Except.ok.inj filled']
  | append_singleton names last ih =>
    obtain ⟨values, x, before, -, rfl⟩ := fill_snoc filled
    obtain ⟨values', x', before', -, rfl⟩ := fill_snoc filled'
    rw [Keyed.names_put, Keyed.names_put, ih before before']

/-- Each stock ends up as its initial value has it: those after it leave what this refers to as it
is, and so does the stock itself if it comes twice. -/
theorem settled_of_fill {names : List String} {values : Snapshot α} (ordered : m.InOrder names)
    (filled : fill m overrides names [] = .ok values) :
    ∀ name ∈ names, initialValue m overrides values name = Snapshot.entry values name := by
  -- on what has been filled in last, so that the step is that of the fold
  induction names using List.reverseRecOn generalizing values with
  | nil => simp
  | append_singleton names last ih =>
    obtain ⟨values, x, before, computed, rfl⟩ := fill_snoc filled
    have settled := ih ordered.left before
    have kept : ∀ other ∈ names, (values.put last x).find? other = values.find? other := by
      intro other known
      rw [Keyed.find?_put]
      split
      · rename_i again
        subst again
        rw [settled last known] at computed
        exact (Snapshot.entry_eq_ok_iff.1 computed).symm
      · rfl
    have same : ∀ other ∈ names ++ [last],
        initialValue m overrides (values.put last x) other = initialValue m overrides values other := by
      intro other listed
      refine initialValue_congr fun stock found reference refers => kept reference ?_
      exact ordered.references_subset listed found refers
    intro other listed
    rw [same other listed]
    rcases List.mem_append.1 listed with known | new
    · rw [settled other known, Snapshot.entry, Snapshot.entry, kept other known]
    · rw [List.mem_singleton.1 new, computed, Snapshot.entry, Keyed.find?_put_self]

/-- The stocks are filled in, each as its initial value has it. -/
structure Filled (m : Model α) (overrides : Overrides α) (done : List String)
    (values : Snapshot α) : Prop where
  names : values.names = done
  settled : ∀ name ∈ done, initialValue m overrides values name = Snapshot.entry values name

theorem filled_of_fill {names : List String} {values : Snapshot α} (distinct : names.Nodup)
    (ordered : m.InOrder names) (filled : fill m overrides names [] = .ok values) :
    Filled m overrides names values :=
  ⟨names_of_fill distinct filled, settled_of_fill ordered filled⟩

/-! ## The equations of the initial values -/

omit [Quantity α] in
theorem find?_eq_of_entry_eq {values values' : Snapshot α} {name : String}
    (same : Snapshot.entry values name = Snapshot.entry values' name) :
    values.find? name = values'.find? name := by
  refine Option.ext fun x => ?_
  rw [← Snapshot.entry_eq_ok_iff, same, Snapshot.entry_eq_ok_iff]

/-- Along a sequence in which each stock comes after those it refers to, the equations determine
one quantity after the other. -/
theorem find?_eq_of_initialValue_eq {names : List String} (ordered : m.InOrder names)
    {values values' : Snapshot α}
    (settled : ∀ name ∈ names, initialValue m overrides values name = Snapshot.entry values name)
    (settled' : ∀ name ∈ names,
      initialValue m overrides values' name = Snapshot.entry values' name) :
    ∀ name ∈ names, values.find? name = values'.find? name := by
  induction names using List.reverseRecOn with
  | nil => simp
  | append_singleton names last ih =>
    have earlier := ih ordered.left (fun name h => settled name (List.mem_append_left _ h))
      (fun name h => settled' name (List.mem_append_left _ h))
    intro name listed
    rcases List.mem_append.1 listed with known | here
    · exact earlier name known
    · have same : initialValue m overrides values name = initialValue m overrides values' name :=
        initialValue_congr fun stock found reference refers =>
          earlier reference (ordered.references_subset listed found refers)
      rw [settled name listed, settled' name listed] at same
      exact find?_eq_of_entry_eq same

theorem fill_snoc_eq_ok {names : List String} {name : String} {values : Snapshot α} {x : α}
    (filled : fill m overrides names [] = .ok values)
    (computed : initialValue m overrides values name = .ok x) :
    fill m overrides (names ++ [name]) [] = .ok (values.put name x) := by
  rw [fill, List.foldlM_append]
  refine bind_eq_ok_iff.2 ⟨values, filled, ?_⟩
  rw [List.foldlM_cons]
  exact bind_eq_ok_iff.2 ⟨_, bind_eq_ok_iff.2 ⟨x, computed, rfl⟩, rfl⟩

/-- Where the equations have a solution, the stocks can be filled in, and are with this. -/
theorem exists_fill_of_settled {names : List String} (ordered : m.InOrder names)
    {solution : Snapshot α} (known : names ⊆ solution.names)
    (settled : ∀ name ∈ names,
      initialValue m overrides solution name = Snapshot.entry solution name) :
    ∃ values, fill m overrides names [] = .ok values ∧
      ∀ name ∈ names, values.find? name = solution.find? name := by
  induction names using List.reverseRecOn with
  | nil => exact ⟨[], rfl, by simp⟩
  | append_singleton names last ih =>
    obtain ⟨values, filled, agree⟩ := ih ordered.left
      (fun name h => known (List.mem_append_left _ h))
      (fun name h => settled name (List.mem_append_left _ h))
    have listed : last ∈ names ++ [last] := by simp
    obtain ⟨x, found⟩ := Keyed.mem_names_iff.1 (known listed)
    have computed : initialValue m overrides values last = .ok x := by
      have same : initialValue m overrides values last = initialValue m overrides solution last :=
        initialValue_congr fun stock found reference refers =>
          agree reference (ordered.references_subset listed found refers)
      rw [same, settled last listed]
      exact Snapshot.entry_eq_ok_iff.2 found
    refine ⟨_, fill_snoc_eq_ok filled computed, fun name listed => ?_⟩
    rw [Keyed.find?_put]
    split
    · rename_i here
      rw [← here, found]
    · rename_i other
      rcases List.mem_append.1 listed with earlier | here
      · exact agree name earlier
      · exact absurd (List.mem_singleton.1 here).symm other

theorem start_eq_ok_iff {state : State α} :
    start m overrides = .ok state ↔
      overrides.names ⊆ m.stockNames ∧ ∃ order values, m.order = .ok order ∧
        fill m overrides (sequence m order) [] = .ok values ∧ state = ⟨m, 0, values⟩ := by
  unfold start
  cases stranger : overrides.names.find? (!m.stockNames.contains ·) with
  | some name =>
    have listed := List.mem_of_find?_eq_some stranger
    have unknown := List.find?_some stranger
    simp only [reduceCtorEq, false_iff, not_and]
    intro known
    simp [known listed] at unknown
  | none =>
    have known : overrides.names ⊆ m.stockNames := by
      intro name listed
      simpa using List.find?_eq_none.1 stranger name listed
    simp only [known, true_and]
    constructor
    · intro started
      obtain ⟨order, valid, started⟩ := bind_eq_ok_iff.1 started
      obtain ⟨values, filled, made⟩ := bind_eq_ok_iff.1 started
      exact ⟨order, values, valid, filled, (Except.ok.inj made).symm⟩
    · rintro ⟨order, values, valid, filled, rfl⟩
      exact bind_eq_ok_iff.2 ⟨order, valid, bind_eq_ok_iff.2 ⟨values, filled, rfl⟩⟩

/-- What a state that could be made has gone through. -/
theorem exists_order_of_start {state : State α} (started : start m overrides = .ok state) :
    ∃ order, m.order = .ok order ∧ fill m overrides (sequence m order) [] = .ok state.values ∧
      state.model = m ∧ state.round = 0 := by
  obtain ⟨-, order, values, valid, filled, rfl⟩ := start_eq_ok_iff.1 started
  exact ⟨order, valid, filled, rfl, rfl⟩

end State

/-- The equations of the initial values: each stock is there once, with the quantity that replaces
its initial value or else the one that this has, read against all stocks. -/
structure Model.Solution [Quantity α] (m : Model α) (overrides : Overrides α)
    (values : Snapshot α) : Prop where
  distinct : values.names.Nodup
  names : ∀ name, name ∈ values.names ↔ name ∈ m.stockNames
  overridden : ∀ name ∈ m.stockNames, ∀ given, overrides.find? name = some given →
    Snapshot.entry values name = given
  computed : ∀ stock ∈ m.stocks, overrides.find? stock.name = none →
    Snapshot.entry values stock.name = stock.initial.evalAt values

section Solution

variable [Quantity α] {m : Model α} {overrides : Overrides α} {values : Snapshot α}

/-- In a model without two stocks of one name, the equations are those of initialization. -/
theorem Model.solution_iff (distinct : m.stockNames.Nodup) :
    m.Solution overrides values ↔
      values.names.Nodup ∧ (∀ name, name ∈ values.names ↔ name ∈ m.stockNames) ∧
        ∀ name ∈ m.stockNames,
          State.initialValue m overrides values name = Snapshot.entry values name := by
  have unfolded : ∀ stock ∈ m.stocks, State.initialValue m overrides values stock.name =
      (overrides.find? stock.name).getD (stock.initial.evalAt values) := by
    intro stock known
    unfold State.initialValue Model.stock
    rw [(stock?_eq_some_iff distinct).2 ⟨known, rfl⟩]
    cases overrides.find? stock.name <;> rfl
  constructor
  · intro solution
    refine ⟨solution.distinct, solution.names, fun name listed => ?_⟩
    obtain ⟨stock, known, rfl⟩ := List.mem_map.1 listed
    rw [unfolded stock known]
    cases given : overrides.find? stock.name with
    | none => exact (solution.computed stock known given).symm
    | some x => exact (solution.overridden _ listed x given).symm
  · rintro ⟨once, names, settled⟩
    refine ⟨once, names, ?_, ?_⟩
    · intro name listed given found
      obtain ⟨stock, known, rfl⟩ := List.mem_map.1 listed
      rw [← settled _ listed, unfolded stock known, found, Option.getD_some]
    · intro stock known found
      rw [← settled _ (List.mem_map_of_mem known), unfolded stock known, found, Option.getD_none]

/-- The state before the first round holds the one solution of the equations of the initial
values, and its stocks have been filled in each after all that it refers to. -/
theorem start_solution {state : State α} (built : m.Built)
    (started : State.start m overrides = .ok state) :
    m.Solution overrides state.values ∧
      (∀ values, m.Solution overrides values →
        ∀ name, values.find? name = state.values.find? name) ∧
      m.InOrder state.values.names := by
  have distinct := built.nodup_stockNames
  obtain ⟨order, valid, filled, -, -⟩ := State.exists_order_of_start started
  have ordered := State.inOrder_sequence valid
  have once := State.nodup_sequence distinct valid
  have result := State.filled_of_fill once ordered filled
  have listed : ∀ name, name ∈ State.sequence m order ↔ name ∈ m.stockNames :=
    fun name => State.mem_sequence_iff valid
  refine ⟨(Model.solution_iff distinct).2 ⟨?_, ?_, ?_⟩, fun other solution name => ?_, ?_⟩
  · rwa [result.names]
  · simpa only [result.names] using listed
  · exact fun name known => result.settled name ((listed name).2 known)
  · obtain ⟨-, names, settled⟩ := (Model.solution_iff distinct).1 solution
    by_cases known : name ∈ m.stockNames
    · exact State.find?_eq_of_initialValue_eq ordered
        (fun name h => settled name ((listed name).1 h)) result.settled name ((listed name).2 known)
    · rw [Keyed.find?_eq_none_iff.2 (mt (names name).1 known), Keyed.find?_eq_none_iff.2]
      rwa [result.names, listed]
  · rwa [result.names]

end Solution

/-- Stocks are declared before those that their initial values refer to. -/
def Model.chained : Model Exact :=
  (Builder.callAll { name := "chained" } [
    .stock "a" (some (.thenValue (.value (.reference "b")) .minus (.reference "c"))) none,
    .stock "b" (some (.thenValue (.value (.reference "c")) .times (.whole "3"))) none,
    .stock "c" (some (.value (.whole "2"))) none,
    .flow (.declared "c") (.declared "a") ⟨.rate, .value (.whole "1")⟩]).build

theorem start_chained : State.start Model.chained [("b", .ok (.finite 10))] =
    .ok ⟨Model.chained, 0, [("c", .finite 2), ("b", .finite 10), ("a", .finite 8)]⟩ := by
  decide +kernel

theorem start_solution_chained :
    ∃ state, State.start Model.chained [("b", .ok (.finite 10))] = .ok state ∧
      Model.chained.Solution [("b", .ok (.finite 10))] state.values ∧
      (∀ values, Model.chained.Solution [("b", .ok (.finite 10))] values →
        ∀ name, values.find? name = state.values.find? name) ∧
      Model.chained.InOrder state.values.names :=
  ⟨_, start_chained, start_solution (.ofCalls "chained" _) start_chained⟩

end StockFlow
