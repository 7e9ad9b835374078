import StockFlow.Proofs.Simulation.Round

/-!
# Turn by turn

The turns of a round one by one, each with the flow that it is the turn of and the quantities as the
flows before it have left them (`Model.steps`), also those of a round that fails later on. What each
of them keeps holds at all of them and in the end (`Turn.steps_induct`).
-/

namespace StockFlow

variable {α : Type} [Quantity α] {m : Model α}

namespace Turn

/-- The turns of flows, each as it finds the round, up to the first fault. -/
def steps (m : Model α) (turn : Turn α) : List Flow → List (Turn α × Flow)
  | [] => []
  | flow :: rest =>
    (turn, flow) ::
      match turn.apply m flow with
      | .ok next => next.steps m rest
      | .error _ => []

theorem steps_of_transfer {turn : Turn α} {flow : Flow} {rest : List Flow} {source : α}
    {moved : Transfer α} (transferred : turn.transfer m flow = .ok (source, moved)) :
    turn.steps m (flow :: rest) = (turn, flow) :: (turn.leave flow source moved).steps m rest := by
  have applied : turn.apply m flow = .ok (turn.leave flow source moved) :=
    bind_eq_ok_iff.2 ⟨_, transferred, rfl⟩
  rw [steps, applied]

/-- What holds at first and is kept by each turn holds at each turn, and when all are over. -/
theorem steps_induct {motive : Turn α → Prop} {turn : Turn α} {flows : List Flow}
    (start : motive turn)
    (step : ∀ p ∈ turn.steps m flows, ∀ source moved, motive p.1 →
      p.1.transfer m p.2 = .ok (source, moved) → motive (p.1.leave p.2 source moved)) :
    (∀ p ∈ turn.steps m flows, motive p.1) ∧ motive (turn.applyAll m flows).after := by
  induction flows generalizing turn with
  | nil => exact ⟨fun p listed => (nomatch listed), start⟩
  | cons flow rest ih =>
    cases applied : turn.apply m flow with
    | error fault =>
      rw [steps, applyAll, applied]
      refine ⟨fun p listed => ?_, start⟩
      rw [List.mem_singleton.1 listed]
      exact start
    | ok next =>
      obtain ⟨source, moved, transferred, rfl⟩ := exists_of_apply applied
      have unfolded : turn.steps m (flow :: rest) = _ := steps_of_transfer transferred
      rw [unfolded] at step ⊢
      rw [applyAll, applied]
      have first := step _ (List.mem_cons_self ..) source moved start transferred
      obtain ⟨each, last⟩ := ih first fun p listed => step p (List.mem_cons_of_mem _ listed)
      exact ⟨List.forall_mem_cons.2 ⟨start, each⟩, last⟩

/-- Only the flows that are given have turns. -/
theorem flow_mem_of_mem_steps {turn : Turn α} {flows : List Flow} {p : Turn α × Flow}
    (listed : p ∈ turn.steps m flows) : p.2 ∈ flows := by
  induction flows generalizing turn with
  | nil => cases listed
  | cons flow rest ih =>
    rw [steps] at listed
    rcases List.mem_cons.1 listed with rfl | later
    · exact List.mem_cons_self ..
    · cases applied : turn.apply m flow with
      | error fault =>
        rw [applied] at later
        cases later
      | ok next =>
        rw [applied] at later
        exact List.mem_cons_of_mem _ (ih later)

/-- The room that a flow finds at its destination. -/
def room (m : Model α) (turn : Turn α) (flow : Flow) : Except Fault α := do
  let held ← Snapshot.entry turn.values flow.destination
  match m.stock? flow.destination with
  | some stock =>
    Flow.room stock (Snapshot.look turn.values) (turn.level held flow.destination)
  | none => .error (.missingEntry flow.destination)

/-- What a flow moves follows from its formula, what its source holds, and the level and the room
that it finds at its destination. -/
theorem exists_room_of_transfer {turn : Turn α} {flow : Flow} {source : α} {moved : Transfer α}
    (transferred : turn.transfer m flow = .ok (source, moved)) :
    turn.values.find? flow.source = some source ∧
      ∃ evaluated level room, flow.rule.formula.evalAt turn.values = .ok evaluated ∧
        turn.room m flow = .ok room ∧
        moved = flow.rule.kind.transfer evaluated source level room := by
  obtain ⟨found, held, stock, maximum, evaluated, holds, known, most, rate, moved_eq⟩ :=
    exists_of_transfer transferred
  refine ⟨found, evaluated, _, _, rate, ?_, moved_eq⟩
  rw [room, Snapshot.entry_eq_ok_iff.2 holds]
  show (match m.stock? flow.destination with | some _ => _ | none => _) = _
  rw [known]
  exact bind_eq_ok_iff.2 ⟨maximum, most, rfl⟩

end Turn

/-- The turns of a round that starts from some quantities, each as it finds the round. -/
def Model.steps (m : Model α) (values : Snapshot α) : List (Turn α × Flow) :=
  Turn.steps m ⟨values, []⟩ m.flows.reverse

theorem Model.flow_mem_of_mem_steps {values : Snapshot α} {p : Turn α × Flow}
    (listed : p ∈ m.steps values) : p.2 ∈ m.flows :=
  List.mem_reverse.1 (Turn.flow_mem_of_mem_steps listed)

end StockFlow
