import StockFlow.Proofs.Simulation.CheckFaults

/-!
# Rounds that fail

A round that fails is not undone. What flows remove is gone at once, so the sources of the flows
that had their turn before the failing one stay drained; what flows bring is held back until the
end of the round, so none of it arrives; and the round is not counted (`State.advance_error`). All
other stocks are as they were.
-/

namespace StockFlow

variable {α : Type} [Quantity α] {m : Model α}

namespace Turn

/-- What flows leave of a stock, each taking what it moves if the stock is its source. -/
def remainder (name : String) (held : α) : List (Flow × Transfer α) → α
  | [] => held
  | (flow, moved) :: rest =>
    remainder name (if flow.source = name then held - moved.removed else held) rest

/-- After the turns of flows each stock has what they leave of it. -/
theorem find?_applyAll {turn : Turn α} {flows : List Flow} {moves : List (Flow × Transfer α)}
    (done : turn.moves m flows = .ok moves) (name : String) :
    (turn.applyAll m flows).after.values.find? name =
      (turn.values.find? name).map (remainder name · moves) := by
  induction flows generalizing turn moves with
  | nil =>
    obtain rfl := Except.ok.inj done
    exact Option.map_id'.symm
  | cons flow rest ih =>
    obtain ⟨⟨source, first⟩, transferred, done⟩ := bind_eq_ok_iff.1 done
    obtain ⟨others, rest_done, same⟩ := bind_eq_ok_iff.1 done
    obtain rfl := Except.ok.inj same
    rw [applyAll_cons_of_transfer transferred, ih rest_done, find?_values_leave]
    by_cases here : flow.source = name
    · obtain ⟨found, -⟩ := exists_of_transfer transferred
      rw [if_pos here, ← here, found, Option.map_some, Option.map_some, remainder, if_pos rfl]
    · simp only [if_neg here, remainder]

/-- A stock that no flow drains keeps what it has. -/
theorem remainder_of_forall_ne {name : String} {moves : List (Flow × Transfer α)}
    (other : ∀ move ∈ moves, move.1.source ≠ name) (held : α) : remainder name held moves = held := by
  induction moves with
  | nil => rfl
  | cons move rest ih =>
    rw [remainder, if_neg (other move (List.mem_cons_self ..))]
    exact ih fun move listed => other move (List.mem_cons_of_mem _ listed)

end Turn

/-- A round that fails is not counted and brings nothing to any stock, but what the flows have
removed that had their turn before the failing one stays removed. -/
theorem State.advance_error {state : State α} {fault : Fault}
    (failed : state.advance.result = .error fault) :
    state.advance.after.model = state.model ∧ state.advance.after.round = state.round ∧
    state.advance.after.values.names = state.values.names ∧
    ∃ before flow after moves reached, state.model.flows.reverse = before ++ flow :: after ∧
      Turn.moves state.model ⟨state.values, []⟩ before = .ok moves ∧ moves.map Prod.fst = before ∧
      Turn.applyAll state.model ⟨state.values, []⟩ before = ⟨reached, .ok ()⟩ ∧
      reached.apply state.model flow = .error fault ∧
      (∀ name, state.advance.after.values.find? name =
        (state.values.find? name).map (Turn.remainder name · moves)) ∧
      ∀ name, (∀ flow ∈ before, flow.source ≠ name) →
        state.advance.after.values.find? name = state.values.find? name := by
  obtain ⟨before, flow, after, reached, split, done, stuck, left⟩ :=
    Turn.exists_of_applyAll_error (turns_of_advance_error failed)
  obtain ⟨moves, moved⟩ := Turn.exists_moves_of_applyAll (congrArg Attempt.result done)
  have flows := Turn.flows_of_moves moved
  have round : state.advance.after.round = state.round := by
    rw [advance_of_turns_error (turns_of_advance_error failed)]
  have drained : ∀ name, state.advance.after.values.find? name =
      (state.values.find? name).map (Turn.remainder name · moves) := by
    intro name
    have values : state.advance.after.values = reached.values :=
      (values_of_advance_error failed).trans (congrArg Turn.values left)
    have turned := Turn.find?_applyAll moved name
    rwa [done, ← values] at turned
  refine ⟨model_advance state, round, names_advance state, before, flow, after, moves, reached,
    split, moved, flows, done, stuck, drained, fun name other => ?_⟩
  have kept : (Turn.remainder name · moves) = id := funext fun held =>
    Turn.remainder_of_forall_ne (fun move listed => other _ (flows ▸ List.mem_map_of_mem listed)) held
  rw [drained, kept, Option.map_id, id]

/-! ## A rate beyond the range -/

/-- The turn of a flow fails if its formula cannot be evaluated. -/
theorem Turn.apply_of_eval_error {turn : Turn α} {flow : Flow} {source held maximum : α}
    {stock : Stock} {fault : Fault} (drains : turn.values.find? flow.source = some source)
    (fills : turn.values.find? flow.destination = some held)
    (known : m.stock? flow.destination = some stock)
    (bounded : stock.maximum.evalAt turn.values = .ok maximum)
    (failed : flow.rule.formula.evalAt turn.values = .error fault) :
    turn.apply m flow = .error fault := by
  have stuck : turn.transfer m flow = .error fault := by
    refine bind_eq_error_iff.2 (.inr ⟨source, Snapshot.entry_eq_ok_iff.2 drains, ?_⟩)
    refine bind_eq_error_iff.2 (.inr ⟨held, Snapshot.entry_eq_ok_iff.2 fills, ?_⟩)
    rw [known]
    refine bind_eq_error_iff.2 (.inr ⟨stock, rfl, bind_eq_error_iff.2 (.inl ?_)⟩)
    refine bind_eq_error_iff.2 (.inr ⟨_, bind_eq_ok_iff.2 ⟨maximum, bounded, rfl⟩, ?_⟩)
    exact bind_eq_error_iff.2 (.inl failed)
  rw [apply, stuck]
  rfl

namespace Model

/-- Two flows into one stock. The rate of the first, which has the last turn, is a whole number. -/
def overrated (digits : String) : Model Float :=
  (Builder.callAll { name := "overrated" } [
    .stock "a" (some (.value (.whole "10"))) none,
    .stock "b" none none,
    .stock "c" (some (.value (.whole "5"))) none,
    .flow (.declared "a") (.declared "b") ⟨.rate, .value (.whole digits)⟩,
    .flow (.declared "c") (.declared "b") ⟨.rate, .value (.whole "2")⟩]).build

def overratedStart (digits : String) : State Float :=
  ⟨overrated digits, 0, [("a", 10), ("b", 0), ("c", 5)]⟩

theorem order_overrated (digits : String) : (overrated digits).order = .ok [] := by
  have same : (overrated digits).order = (overrated "0").order := rfl
  rw [same]
  decide +kernel

theorem built_overrated (digits : String) : (overrated digits).Built :=
  .ofCalls "overrated" _

theorem simulate_overrated (digits : String) :
    (overrated digits).simulate [] = .ok (overratedStart digits) := by
  have filled : State.fill (overrated digits) [] (State.sequence (overrated digits) []) [] =
      .ok [("a", 10), ("b", 0), ("c", 5)] := by
    have same : State.fill (overrated digits) [] (State.sequence (overrated digits) []) [] =
      State.fill (overrated "0") [] (State.sequence (overrated "0") []) [] := rfl
    rw [same]
    decide +kernel
  have valid := order_overrated digits
  exact bind_eq_ok_iff.2 ⟨_, valid, bind_eq_ok_iff.2 ⟨_, valid, bind_eq_ok_iff.2 ⟨_, filled, rfl⟩⟩⟩

/-- The flow from `c` has its turn, and the one from `a` fails. -/
theorem turns_overrated {digits : String} {fault : Fault} (whole : WholeFault Float digits fault) :
    ∃ last, (overrated digits).turns (overratedStart digits).values = ⟨last, .error fault⟩ ∧
      last.values = [("a", 10), ("b", 0), ("c", 3)] := by
  let turn : Turn Float := ⟨[("a", 10), ("b", 0), ("c", 5)], []⟩
  let first : Flow := ⟨"c", "b", .rate, .value (.whole "2")⟩
  let second : Flow := ⟨"a", "b", .rate, .value (.whole digits)⟩
  have moves : turn.transfer (overrated digits) first = .ok (5, ⟨2, 2⟩) := by
    have same : turn.transfer (overrated digits) first = turn.transfer (overrated "0") first := rfl
    rw [same]
    decide +kernel
  let last := turn.leave first 5 ⟨2, 2⟩
  have left : last.values = [("a", 10), ("b", 0), ("c", 3)] := by decide +kernel
  have stuck : last.apply (overrated digits) second = .error fault := by
    have drains : last.values.find? "a" = some 10 := by rw [left]; rfl
    have fills : last.values.find? "b" = some 0 := by rw [left]; rfl
    have known : (overrated digits).stock? "b" = some { name := "b" } := rfl
    have bounded : Formula.unbounded.evalAt last.values = .ok Quantity.infinity := rfl
    exact Turn.apply_of_eval_error drains fills known bounded
      (whole.eval (Snapshot.look last.values))
  refine ⟨last, ?_, left⟩
  change turn.applyAll (overrated digits) [first, second] = _
  rw [Turn.applyAll_cons_of_transfer moves, Turn.applyAll, stuck]

theorem advance_overrated {digits : String} {fault : Fault}
    (whole : WholeFault Float digits fault) :
    (overratedStart digits).advance.result = .error fault ∧
      (overratedStart digits).advance.after.values = [("a", 10), ("b", 0), ("c", 3)] := by
  obtain ⟨last, turns, left⟩ := turns_overrated whole
  have stuck : ((overratedStart digits).model.turns (overratedStart digits).values).result =
      .error fault := congrArg Attempt.result turns
  rw [State.advance_of_turns_error stuck]
  exact ⟨rfl, (congrArg (·.after.values) turns).trans left⟩

end Model

/-- What the flow from `c` has removed is gone, though the flow from `a` fails. -/
theorem State.advance_error_overrated :
    ∃ before flow after moves,
      (Model.overrated Model.beyondRange).flows.reverse = before ++ flow :: after ∧
      moves.map Prod.fst = before ∧
      ∀ name, Keyed.find? name [("a", (10 : Float)), ("b", 0), ("c", 3)] =
        (Keyed.find? name [("a", (10 : Float)), ("b", 0), ("c", 5)]).map
          (Turn.remainder name · moves) := by
  obtain ⟨failed, drained⟩ := Model.advance_overrated Model.wholeFault_beyondRange
  obtain ⟨-, -, -, before, flow, after, moves, -, split, -, flows, -, -, left, -⟩ :=
    State.advance_error failed
  rw [drained] at left
  exact ⟨before, flow, after, moves, split, flows, left⟩

/-- A round that fails may leave other quantities than before. -/
theorem State.not_advance_atomic :
    ¬ ∀ (m : Model Float) (order : List String) (state : State Float) (n : Nat) (fault : Fault),
      m.Built → m.order = .ok order → m.simulate [] = .ok state →
      (state.afterRounds n).advance.result = .error fault →
        (state.afterRounds n).advance.after.values = (state.afterRounds n).values ∧
        (state.afterRounds n).advance.after.round = (state.afterRounds n).round := by
  intro always
  obtain ⟨digits, whole⟩ : ∃ digits, WholeFault Float digits .wholeTooLarge :=
    ⟨_, Model.wholeFault_beyondRange⟩
  obtain ⟨failed, drained⟩ := Model.advance_overrated whole
  obtain ⟨same, -⟩ := always (Model.overrated digits) [] (Model.overratedStart digits) 0 _
    (Model.built_overrated digits) (Model.order_overrated digits)
    (Model.simulate_overrated digits) failed
  have unchanged : [("a", (10 : Float)), ("b", 0), ("c", 3)] = [("a", 10), ("b", 0), ("c", 5)] :=
    drained.symm.trans same
  exact absurd unchanged (by decide +kernel)

end StockFlow
