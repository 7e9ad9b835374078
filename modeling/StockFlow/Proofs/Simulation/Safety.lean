import StockFlow.Proofs.Formula.Computation
import StockFlow.Proofs.Simulation.Round
import StockFlow.Proofs.Text.Joining
import StockFlow.Quantity.Double

/-!
# Safety of simulations

In a model that has been built and validated everything that a simulation looks up is there: while
the stocks are initialized (`Model.startServed`), in the turn of each flow and at the end of each
round (`Model.roundServed`). So nothing but whole numbers that cannot be read makes it fail, and all
states of a simulation have the stocks of the model, in one order (`Model.simulation_safe`).
-/

namespace StockFlow

open StockFlow.Spec

variable {α : Type} [Quantity α] {m : Model α}

namespace Model

omit [Quantity α] in
theorem exists_stock? {name : String} (known : name ∈ m.stockNames) :
    ∃ stock, m.stock? name = some stock := by
  obtain ⟨stock, listed, rfl⟩ := List.mem_map.1 known
  exact Option.isSome_iff_exists.1 (List.find?_isSome.2 ⟨stock, listed, beq_self_eq_true _⟩)

/-- All formulas of a model. -/
def formulas (m : Model α) : List Formula :=
  (m.stocks.flatMap fun stock => [stock.initial, stock.maximum]) ++ m.flows.map (·.rule.formula)

/-- The fault of a whole number without a quantity that one of the model's formulas spells out. -/
def LiteralFault (m : Model α) (fault : Fault) : Prop :=
  ∃ formula ∈ m.formulas, ∃ digits ∈ formula.wholes, WholeFault α digits fault

theorem literalFault_of_evalAt {formula : Formula} (listed : formula ∈ m.formulas)
    {values : Snapshot α} {fault : Fault} (failed : formula.evalAt values = .error fault) :
    m.LiteralFault fault :=
  ⟨formula, listed, Formula.whole_of_evalAt failed⟩

omit [Quantity α] in
theorem initial_mem_formulas {stock : Stock} (listed : stock ∈ m.stocks) :
    stock.initial ∈ m.formulas :=
  List.mem_append_left _ (List.mem_flatMap.2 ⟨stock, listed, by simp⟩)

omit [Quantity α] in
theorem maximum_mem_formulas {stock : Stock} (listed : stock ∈ m.stocks) :
    stock.maximum ∈ m.formulas :=
  List.mem_append_left _ (List.mem_flatMap.2 ⟨stock, listed, by simp⟩)

omit [Quantity α] in
theorem rate_mem_formulas {flow : Flow} (listed : flow ∈ m.flows) :
    flow.rule.formula ∈ m.formulas :=
  List.mem_append_right _ (List.mem_map_of_mem listed)

/-- All that a model names are its stocks, in formulas and at the ends of flows. -/
structure Sealed (m : Model α) : Prop extends m.Closed where
  ends : ∀ flow ∈ m.flows, flow.source ∈ m.stockNames ∧ flow.destination ∈ m.stockNames

theorem Built.sealed {order : List String} (built : m.Built) (valid : m.order = .ok order) :
    m.Sealed :=
  { (order_eq_ok_iff.1 valid).1 with ends := built.ends_declared }

end Model

/-! ## Initialization -/

/-- Every look-up of the initialization finds what it looks for: the stock whose turn it is, and
among the stocks filled in so far those that its initial value refers to. -/
def Model.StartServed (m : Model α) (overrides : Overrides α) (order : List String) : Prop :=
  ∀ before name after, State.sequence m order = before ++ name :: after →
    ∀ values, State.fill m overrides before [] = .ok values →
      ∃ stock, m.stock? name = some stock ∧ stock.initial.references ⊆ values.names

theorem Model.startServed {order : List String} (distinct : m.stockNames.Nodup)
    (valid : m.order = .ok order) (overrides : Overrides α) : m.StartServed overrides order := by
  intro before name after split values filled
  have ordered := State.inOrder_sequence valid
  have known : name ∈ m.stockNames := (State.mem_sequence_iff valid).1 (by rw [split]; simp)
  obtain ⟨stock, found⟩ := exists_stock? known
  have once := State.nodup_sequence distinct valid
  have references := ordered before name after split stock found
  rw [split] at ordered once
  have names := (State.filled_of_fill (List.nodup_append.1 once).1 ordered.left filled).names
  exact ⟨stock, found, by rwa [names]⟩

namespace State

variable {overrides : Overrides α} {fault : Fault}

/-- If stocks cannot be filled in, the first of them that has no initial quantity is the reason. -/
theorem exists_of_fill_error {names : List String} {values : Snapshot α}
    (failed : fill m overrides names values = .error fault) :
    ∃ before name after reached, names = before ++ name :: after ∧
      fill m overrides before values = .ok reached ∧
      initialValue m overrides reached name = .error fault := by
  obtain ⟨i, name, reached, listed, filled, stuck⟩ := Text.foldlM_eq_error_iff.1 failed
  obtain ⟨inside, rfl⟩ := List.getElem?_eq_some_iff.1 listed
  have split : names = names.take i ++ names[i] :: names.drop (i + 1) := by
    rw [← List.drop_eq_getElem_cons inside, List.take_append_drop]
  refine ⟨_, _, _, reached, split, filled, ?_⟩
  rcases bind_eq_error_iff.1 stuck with stuck | ⟨_, -, stuck⟩
  · exact stuck
  · cases stuck

theorem literalFault_of_fill {order : List String} (served : m.StartServed overrides order)
    (given : ∀ name value, overrides.find? name = some value → ∃ x, value = .ok x)
    (failed : fill m overrides (sequence m order) [] = .error fault) : m.LiteralFault fault := by
  obtain ⟨before, name, after, values, split, filled, stuck⟩ := exists_of_fill_error failed
  obtain ⟨stock, found, -⟩ := served before name after split values filled
  unfold initialValue Model.stock at stuck
  cases override : overrides.find? name with
  | some value =>
    obtain ⟨x, rfl⟩ := given name value override
    rw [override] at stuck
    cases stuck
  | none =>
    rw [override, found] at stuck
    exact Model.literalFault_of_evalAt
      (Model.initial_mem_formulas (List.mem_of_find?_eq_some found)) stuck

end State

theorem Model.literalFault_of_simulate {order : List String} {overrides : Overrides α}
    {fault : Fault} (valid : m.order = .ok order) (served : m.StartServed overrides order)
    (known : overrides.names ⊆ m.stockNames)
    (given : ∀ name value, overrides.find? name = some value → ∃ x, value = .ok x)
    (failed : m.simulate overrides = .error fault) : m.LiteralFault fault := by
  have no_stranger : overrides.names.find? (!m.stockNames.contains ·) = none := by
    rw [List.find?_eq_none]
    intro name listed
    simpa using known listed
  rw [simulate, valid] at failed
  change State.start m overrides = .error fault at failed
  rw [State.start, no_stranger, valid] at failed
  rcases bind_eq_error_iff.1 failed with failed | ⟨_, same, failed⟩
  · cases failed
  · obtain rfl := Except.ok.inj same
    rcases bind_eq_error_iff.1 failed with failed | ⟨_, -, failed⟩
    · exact State.literalFault_of_fill served given failed
    · cases failed

/-! ## Turns -/

/-- Only its two formulas make the transfer of a flow fail. -/
theorem Flow.cause_of_transfer {flow : Flow} {destination : Stock} {look : String → Except Fault α}
    {source held : α} {fault : Fault}
    (failed : flow.transfer destination look source held = .error fault) :
    destination.maximum.eval look = .error fault ∨ flow.rule.formula.eval look = .error fault := by
  unfold transfer room Rule.transfer at failed
  cases maximum : destination.maximum.eval look with
  | error other =>
    rw [maximum] at failed
    exact .inl (congrArg Except.error (Except.error.inj failed))
  | ok most =>
    cases rate : flow.rule.formula.eval look with
    | error other =>
      rw [maximum, rate] at failed
      exact .inr (congrArg Except.error (Except.error.inj failed))
    | ok evaluated =>
      rw [maximum, rate] at failed
      cases failed

namespace Turn

variable {turn : Turn α} {flow : Flow} {fault : Fault}

/-- Every look-up of a flow's turn finds what it looks for: what is held at both ends, the stock to
fill, and what its maximum and the formula of the flow refer to. -/
structure Served (m : Model α) (turn : Turn α) (flow : Flow) : Prop where
  source : flow.source ∈ turn.values.names
  destination : flow.destination ∈ turn.values.names
  maximum : ∃ stock, m.stock? flow.destination = some stock ∧
    stock.maximum.references ⊆ turn.values.names
  formula : flow.rule.formula.references ⊆ turn.values.names

/-- In the middle of a round all stocks are there, and nothing is held back for others. -/
structure Complete (m : Model α) (turn : Turn α) : Prop where
  stocks : m.stockNames ⊆ turn.values.names
  pending : turn.pending.names ⊆ turn.values.names

omit [Quantity α] in
theorem Complete.served (complete : turn.Complete m) (whole : m.Sealed) (listed : flow ∈ m.flows) :
    turn.Served m flow := by
  obtain ⟨source, destination⟩ := whole.ends flow listed
  obtain ⟨stock, found⟩ := Model.exists_stock? destination
  have maximum := whole.maximum stock (List.mem_of_find?_eq_some found)
  exact {
    source := complete.stocks source
    destination := complete.stocks destination
    maximum := ⟨stock, found, fun name refers => complete.stocks (maximum refers)⟩
    formula := fun name refers => complete.stocks (whole.rate flow listed refers) }

theorem Complete.leave {source : α} {moved : Transfer α} (complete : turn.Complete m)
    (transferred : turn.transfer m flow = .ok (source, moved)) :
    (turn.leave flow source moved).Complete m where
  stocks := by rw [names_leave transferred]; exact complete.stocks
  pending := pending_leave_subset complete.pending transferred

theorem Complete.applyAll (complete : turn.Complete m) (flows : List Flow) :
    (turn.applyAll m flows).after.Complete m :=
  applyAll_induct complete (fun _ _ _ _ complete transferred => complete.leave transferred) flows

/-- If turns fail, the first of them that does is the reason, and what those before it have left is
what they leave. -/
theorem exists_of_applyAll_error {flows : List Flow}
    (failed : (turn.applyAll m flows).result = .error fault) :
    ∃ before flow after reached, flows = before ++ flow :: after ∧
      turn.applyAll m before = ⟨reached, .ok ()⟩ ∧ reached.apply m flow = .error fault ∧
      (turn.applyAll m flows).after = reached := by
  induction flows generalizing turn with
  | nil => cases failed
  | cons flow rest ih =>
    cases applied : turn.apply m flow with
    | ok next =>
      rw [applyAll, applied] at failed ⊢
      obtain ⟨before, flow', after, reached, rfl, done, stuck, left⟩ := ih failed
      refine ⟨flow :: before, flow', after, reached, rfl, ?_, stuck, left⟩
      rw [applyAll, applied]
      exact done
    | error fault' =>
      rw [applyAll, applied] at failed ⊢
      obtain rfl := Except.error.inj failed
      exact ⟨[], flow, rest, turn, rfl, rfl, applied, rfl⟩

/-- Where the look-ups find something, only the two formulas can make a turn fail. -/
theorem literalFault_of_apply (served : turn.Served m flow) (listed : flow ∈ m.flows)
    (failed : turn.apply m flow = .error fault) : m.LiteralFault fault := by
  obtain ⟨source, source_found⟩ := Snapshot.exists_entry served.source
  obtain ⟨held, held_found⟩ := Snapshot.exists_entry served.destination
  obtain ⟨stock, found, -⟩ := served.maximum
  have transferred : turn.transfer m flow = (do
      let moved ← flow.transfer stock (Snapshot.look turn.values) source
        (turn.level held flow.destination)
      return (source, moved)) := by
    rw [transfer, source_found, held_found, found]
    rfl
  have stuck : flow.transfer stock (Snapshot.look turn.values) source
      (turn.level held flow.destination) = .error fault := by
    rw [apply, transferred] at failed
    cases moved : flow.transfer stock (Snapshot.look turn.values) source
        (turn.level held flow.destination) with
    | error other =>
      rw [moved] at failed
      exact congrArg Except.error (Except.error.inj failed)
    | ok transfer =>
      rw [moved] at failed
      cases failed
  rcases Flow.cause_of_transfer stuck with maximum | rate
  · exact Model.literalFault_of_evalAt
      (Model.maximum_mem_formulas (List.mem_of_find?_eq_some found)) maximum
  · exact Model.literalFault_of_evalAt (Model.rate_mem_formulas listed) rate

end Turn

/-! ## Rounds -/

/-- Every look-up of a round finds what it looks for: in the turns of the flows, up to the first
fault, and when what has been held back is added. -/
structure Model.RoundServed (m : Model α) (values : Snapshot α) : Prop where
  turns : ∀ before flow after, m.flows.reverse = before ++ flow :: after →
    (Turn.applyAll m ⟨values, []⟩ before).after.Served m flow
  commit : (m.turns values).after.pending.names ⊆ (m.turns values).after.values.names

theorem Model.roundServed (whole : m.Sealed) {values : Snapshot α}
    (stocks : m.stockNames ⊆ values.names) :
    m.RoundServed values := by
  have start : (Turn.mk values []).Complete m := ⟨stocks, List.nil_subset _⟩
  refine ⟨fun before flow after split => ?_, (start.applyAll _).pending⟩
  have listed : flow ∈ m.flows := List.mem_reverse.1 (split ▸ by simp)
  exact (start.applyAll before).served whole listed

namespace State

variable {state : State α} {fault : Fault}

theorem model_advance (state : State α) : state.advance.after.model = state.model := by
  unfold advance
  simp only
  split <;> rfl

/-- Whether a round gets to its end or not, the stocks stay as they are, and in their order. -/
theorem names_advance (state : State α) :
    state.advance.after.values.names = state.values.names := by
  cases done : state.advance.result with
  | ok _ => exact (round_of_advance done).1.names_next
  | error fault =>
    rw [values_of_advance_error done]
    exact Turn.names_applyAll ..

theorem literalFault_of_advance (whole : state.model.Sealed)
    (stocks : state.model.stockNames ⊆ state.values.names)
    (failed : state.advance.result = .error fault) : state.model.LiteralFault fault := by
  obtain ⟨before, flow, after, reached, split, done, stuck, -⟩ :=
    Turn.exists_of_applyAll_error (turns_of_advance_error failed)
  have served := (Model.roundServed whole stocks).turns before flow after split
  rw [done] at served
  exact Turn.literalFault_of_apply served (List.mem_reverse.1 (split ▸ by simp)) stuck

/-- A state after a number of rounds, each of which goes on from what the one before has left, be it
done or not. -/
def afterRounds (state : State α) : Nat → State α
  | 0 => state
  | n + 1 => (state.afterRounds n).advance.after

theorem afterRounds_kept (state : State α) (n : Nat) :
    (state.afterRounds n).model = state.model ∧
      (state.afterRounds n).values.names = state.values.names := by
  induction n with
  | zero => exact ⟨rfl, rfl⟩
  | succ n ih => exact ⟨(model_advance _).trans ih.1, (names_advance _).trans ih.2⟩

end State

/-! ## Simulations -/

/-- In a model that has been built and validated, with stocks of the model overridden by quantities,
a formula never falls back to anything for want of an operand; the initialization and all rounds,
also those that go on from a failed one, find everything that they look up; all states have the
stocks of the model, in one order; and only a whole number that one of the formulas spells out can
make initialization or a round fail, because it is too large or has too many digits. -/
theorem Model.simulation_safe {order : List String} {overrides : Overrides α} (built : m.Built)
    (valid : m.order = .ok order) (known : overrides.names ⊆ m.stockNames)
    (given : ∀ name value, overrides.find? name = some value → ∃ x, value = .ok x) :
    (∀ (formula : Formula) look fallbackOf (fallback : α),
      formula.expression.evalFrom look fallbackOf fallback none none = formula.eval look) ∧
    m.StartServed overrides order ∧
    (∀ fault, m.simulate overrides = .error fault → m.LiteralFault fault) ∧
    ∀ state, m.simulate overrides = .ok state →
      state.values.names.Perm m.stockNames ∧
      ∀ n, (state.afterRounds n).values.names = state.values.names ∧
        m.RoundServed (state.afterRounds n).values ∧
        ∀ fault, (state.afterRounds n).advance.result = .error fault → m.LiteralFault fault := by
  have distinct := built.nodup_stockNames
  have served := Model.startServed distinct valid overrides
  refine ⟨fun formula look fallbackOf => formula.evalFrom_expression look fallbackOf, served,
    fun fault => Model.literalFault_of_simulate valid served known given, fun state simulated => ?_⟩
  obtain ⟨_, _, started⟩ := bind_eq_ok_iff.1 simulated
  obtain ⟨order', valid', filled, rfl, -⟩ := State.exists_order_of_start started
  have once := State.nodup_sequence distinct valid'
  have names := (State.filled_of_fill once (State.inOrder_sequence valid') filled).names
  have same : state.values.names.Perm state.model.stockNames := by
    rw [names]
    exact (List.perm_ext_iff_of_nodup once distinct).2 fun name => State.mem_sequence_iff valid'
  refine ⟨same, fun n => ?_⟩
  obtain ⟨same_model, same_names⟩ := state.afterRounds_kept n
  have stocks : state.model.stockNames ⊆ (state.afterRounds n).values.names := by
    rw [same_names]
    exact same.symm.subset
  have whole := built.sealed valid
  refine ⟨same_names, Model.roundServed whole stocks, fun fault failed => ?_⟩
  rw [← same_model] at whole stocks ⊢
  exact State.literalFault_of_advance whole stocks failed

theorem Model.simulation_safe_chained :
    ∃ state, Model.chained.simulate [("b", .ok (.finite 10))] = .ok state ∧
      state.values.names.Perm Model.chained.stockNames ∧
      (state.afterRounds 3).values.names = ["c", "b", "a"] ∧
      Model.chained.RoundServed (state.afterRounds 3).values := by
  have valid : Model.chained.order = .ok ["b", "a"] := by decide +kernel
  have known : Keyed.names [("b", (.ok (.finite 10) : Except Fault Exact))] ⊆
      Model.chained.stockNames := by decide +kernel
  have given : ∀ name value, Keyed.find? name [("b", (.ok (.finite 10) : Except Fault Exact))] =
      some value → ∃ x, value = .ok x := by
    intro name value found
    rcases List.mem_singleton.1 (Keyed.mem_of_find? found) with ⟨⟩
    exact ⟨_, rfl⟩
  have simulated : Model.chained.simulate [("b", .ok (.finite 10))] =
      .ok ⟨Model.chained, 0, [("c", .finite 2), ("b", .finite 10), ("a", .finite 8)]⟩ := by
    rw [Model.simulate, valid]
    exact start_chained
  obtain ⟨same, later⟩ :=
    (Model.simulation_safe (.ofCalls "chained" _) valid known given).2.2.2 _ simulated
  exact ⟨_, simulated, same, (later 3).1, (later 3).2.1⟩

/-- A model of one stock that starts with a whole number. -/
def Model.spelled (digits : String) : Model Float :=
  (Builder.callAll { name := "" } [.stock "a" (some (.value (.whole digits))) none]).build

theorem Model.order_spelled (digits : String) : (Model.spelled digits).order = .ok [] := by
  have same : (Model.spelled digits).order = (Model.spelled "0").order := rfl
  rw [same]
  decide +kernel

theorem Model.simulate_spelled {digits : String} (long : Fault.maxDigits < wholeLength digits) :
    (Model.spelled digits).simulate [] = .error (.wholeTooLong (wholeLength digits)) := by
  have stuck : State.initialValue (Model.spelled digits) [] [] "a" =
      .error (.wholeTooLong (wholeLength digits)) :=
    (WholeFault.tooLong long).eval (Snapshot.look [])
  rw [simulate, order_spelled]
  change State.start (Model.spelled digits) [] = _
  rw [State.start, order_spelled]
  change State.fill (Model.spelled digits) [] ["a"] [] >>= _ = _
  rw [State.fill, List.foldlM_cons, stuck]
  rfl

theorem wholeLength_zeros (n : Nat) : wholeLength (.ofList (List.replicate n '0')) = n := by
  rw [wholeLength, String.toList_ofList, List.countP_replicate]
  rfl

/-- Zero has a quantity, and yet cannot be read if it is spelled with too many digits. -/
theorem Model.not_only_wholeTooLarge :
    ¬ ∀ (m : Model Float) (order : List String), m.Built → m.order = .ok order →
      ∀ fault, m.simulate [] = .error fault → fault = .wholeTooLarge := by
  intro only
  let zeros := String.ofList (List.replicate (Fault.maxDigits + 1) '0')
  have long : Fault.maxDigits < wholeLength zeros := by
    rw [wholeLength_zeros]
    exact Nat.lt_succ_self _
  cases only _ _ (.ofCalls "" _) (Model.order_spelled _) _ (Model.simulate_spelled long)

end StockFlow
