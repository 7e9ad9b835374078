import StockFlow.Proofs.Simulation.Initialization

/-!
# Rounds

What one flow's turn looks at and leaves (`Turn.exists_of_apply`, `Turn.exists_of_transfer`), what
the turns of all flows move (`Turn.moves`), and what is committed at the end
(`Turn.find?_of_commit`). From a law of single turns follows one of rounds (`Turn.applyAll_induct`).
A round is determined by the quantities that it starts from (`Model.Round.next_unique`).
-/

namespace StockFlow

variable {α : Type} [Quantity α] {m : Model α}

omit [Quantity α] in
theorem Snapshot.exists_entry {values : Snapshot α} {name : String} (listed : name ∈ values.names) :
    ∃ x, Snapshot.entry values name = .ok x := by
  obtain ⟨x, found⟩ := Keyed.mem_names_iff.1 listed
  exact ⟨x, Snapshot.entry_eq_ok_iff.2 found⟩

omit [Quantity α] in
/-- Another quantity for a stock that has one leaves the stocks as they are. -/
theorem Snapshot.names_put {values : Snapshot α} {name : String} {x : α}
    (found : values.find? name = some x) (y : α) : (values.put name y).names = values.names := by
  rw [Keyed.names_put, if_pos (Keyed.mem_names_iff.2 ⟨x, found⟩)]

namespace Turn

/-- What a flow leaves that has moved something. -/
def leave (turn : Turn α) (flow : Flow) (source : α) (moved : Transfer α) : Turn α :=
  { values := turn.values.put flow.source (source - moved.removed)
    pending := turn.pending.put flow.destination (turn.heldBack flow.destination + moved.added) }

/-- The level that a flow fills its destination from: what it holds and what is held back for it. -/
def level (turn : Turn α) (held : α) (name : String) : α :=
  held + turn.heldBack name

theorem exists_of_apply {turn next : Turn α} {flow : Flow} (applied : turn.apply m flow = .ok next) :
    ∃ source moved, turn.transfer m flow = .ok (source, moved) ∧
      next = turn.leave flow source moved := by
  obtain ⟨⟨source, moved⟩, transferred, left⟩ := bind_eq_ok_iff.1 applied
  exact ⟨source, moved, transferred, (Except.ok.inj left).symm⟩

/-- All that a transfer depends on: the quantities at both ends, the maximum of the destination and
the formula of the flow, all as they are when its turn comes. -/
theorem exists_of_transfer {turn : Turn α} {flow : Flow} {source : α} {moved : Transfer α}
    (transferred : turn.transfer m flow = .ok (source, moved)) :
    turn.values.find? flow.source = some source ∧
      ∃ held stock maximum evaluated,
        turn.values.find? flow.destination = some held ∧
        m.stock? flow.destination = some stock ∧
        stock.maximum.evalAt turn.values = .ok maximum ∧
        flow.rule.formula.evalAt turn.values = .ok evaluated ∧
        moved = flow.rule.kind.transfer evaluated source (turn.level held flow.destination)
          (if Quantity.isInfinite (turn.level held flow.destination) then maximum
            else maximum - turn.level held flow.destination) := by
  obtain ⟨source', source_eq, rest⟩ := bind_eq_ok_iff.1 transferred
  obtain ⟨held, held_eq, rest⟩ := bind_eq_ok_iff.1 rest
  cases stock_eq : m.stock? flow.destination with
  | none =>
    rw [stock_eq] at rest
    cases rest
  | some stock =>
    rw [stock_eq] at rest
    obtain ⟨_, same, rest⟩ := bind_eq_ok_iff.1 rest
    obtain rfl := Except.ok.inj same
    obtain ⟨moved', moved_eq, same⟩ := bind_eq_ok_iff.1 rest
    obtain ⟨rfl, rfl⟩ := Prod.mk.inj (Except.ok.inj same)
    obtain ⟨room, room_eq, moved_eq⟩ := bind_eq_ok_iff.1 moved_eq
    obtain ⟨maximum, maximum_eq, room_eq⟩ := bind_eq_ok_iff.1 room_eq
    obtain ⟨evaluated, evaluated_eq, moved_eq⟩ := bind_eq_ok_iff.1 moved_eq
    obtain rfl := Except.ok.inj room_eq
    exact ⟨Snapshot.entry_eq_ok_iff.1 source_eq, held, stock, maximum, evaluated,
      Snapshot.entry_eq_ok_iff.1 held_eq, rfl, maximum_eq, evaluated_eq,
      (Except.ok.inj moved_eq).symm⟩

theorem find?_values_leave (turn : Turn α) (flow : Flow) (source : α) (moved : Transfer α)
    (name : String) :
    (turn.leave flow source moved).values.find? name =
      if flow.source = name then some (source - moved.removed) else turn.values.find? name :=
  Keyed.find?_put ..

theorem find?_pending_leave (turn : Turn α) (flow : Flow) (source : α) (moved : Transfer α)
    (name : String) :
    (turn.leave flow source moved).pending.find? name =
      if flow.destination = name then some (turn.heldBack flow.destination + moved.added)
      else turn.pending.find? name :=
  Keyed.find?_put ..

theorem names_leave {turn : Turn α} {flow : Flow} {source : α} {moved : Transfer α}
    (transferred : turn.transfer m flow = .ok (source, moved)) :
    (turn.leave flow source moved).values.names = turn.values.names :=
  Snapshot.names_put (exists_of_transfer transferred).1 _

/-- What is held back stays with stocks that are there. -/
theorem pending_leave_subset {turn : Turn α} {flow : Flow} {source : α} {moved : Transfer α}
    (known : turn.pending.names ⊆ turn.values.names)
    (transferred : turn.transfer m flow = .ok (source, moved)) :
    (turn.leave flow source moved).pending.names ⊆ (turn.leave flow source moved).values.names := by
  obtain ⟨-, held, -, -, -, holds, -⟩ := exists_of_transfer transferred
  intro name listed
  rw [names_leave transferred]
  change name ∈ (turn.pending.put flow.destination _).names at listed
  rw [Keyed.names_put] at listed
  split at listed
  · exact known listed
  · rcases List.mem_append.1 listed with before | here
    · exact known before
    · exact Keyed.mem_names_iff.2 ⟨held, List.mem_singleton.1 here ▸ holds⟩

theorem heldBack_leave (turn : Turn α) (flow : Flow) (source : α) (moved : Transfer α)
    (name : String) :
    (turn.leave flow source moved).heldBack name =
      if flow.destination = name then turn.heldBack name + moved.added else turn.heldBack name := by
  rw [heldBack, find?_pending_leave]
  split
  · rename_i same
    rw [same, Option.getD_some]
  · rfl

/-! ## The turns of all flows -/

/-- What flows move in their turns, each with the flow. -/
def moves (m : Model α) (turn : Turn α) : List Flow → Except Fault (List (Flow × Transfer α))
  | [] => .ok []
  | flow :: rest => do
    let (source, moved) ← turn.transfer m flow
    return (flow, moved) :: (← moves m (turn.leave flow source moved) rest)

/-- What flows have taken from a stock altogether. -/
def drained (name : String) : List (Flow × Transfer α) → α
  | [] => Quantity.zero
  | (flow, moved) :: rest =>
    if flow.source = name then moved.removed + drained name rest else drained name rest

/-- What the turn of each of some flows keeps is kept by the turns of all of them. -/
theorem applyAll_induct_of_mem {motive : Turn α → Prop} {turn : Turn α} {flows : List Flow}
    (start : motive turn)
    (step : ∀ turn, ∀ flow ∈ flows, ∀ source moved, motive turn →
      turn.transfer m flow = .ok (source, moved) → motive (turn.leave flow source moved)) :
    motive (turn.applyAll m flows).after := by
  induction flows generalizing turn with
  | nil => exact start
  | cons flow rest ih =>
    unfold applyAll
    split
    · rename_i next applied
      obtain ⟨source, moved, transferred, rfl⟩ := exists_of_apply applied
      refine ih (step turn flow (List.mem_cons_self ..) source moved start transferred) ?_
      exact fun turn flow listed => step turn flow (List.mem_cons_of_mem _ listed)
    · exact start

/-- What every flow's turn keeps is kept by the turns of all. -/
theorem applyAll_induct {motive : Turn α → Prop} {turn : Turn α} (start : motive turn)
    (step : ∀ turn flow source moved, motive turn → turn.transfer m flow = .ok (source, moved) →
      motive (turn.leave flow source moved)) (flows : List Flow) :
    motive (turn.applyAll m flows).after :=
  applyAll_induct_of_mem start fun turn flow _ => step turn flow

theorem applyAll_cons_of_transfer {turn : Turn α} {flow : Flow} {rest : List Flow} {source : α}
    {moved : Transfer α} (transferred : turn.transfer m flow = .ok (source, moved)) :
    turn.applyAll m (flow :: rest) = (turn.leave flow source moved).applyAll m rest := by
  have applied : turn.apply m flow = .ok (turn.leave flow source moved) :=
    bind_eq_ok_iff.2 ⟨_, transferred, rfl⟩
  rw [applyAll, applied]

/-- Turns without a fault are those of the first flow and of all others, each without a fault. -/
theorem applyAll_cons_eq_ok_iff {turn last : Turn α} {flow : Flow} {rest : List Flow} :
    turn.applyAll m (flow :: rest) = ⟨last, .ok ()⟩ ↔
      ∃ source moved, turn.transfer m flow = .ok (source, moved) ∧
        (turn.leave flow source moved).applyAll m rest = ⟨last, .ok ()⟩ := by
  constructor
  · intro done
    unfold applyAll at done
    split at done
    · rename_i next applied
      obtain ⟨source, moved, transferred, rfl⟩ := exists_of_apply applied
      exact ⟨source, moved, transferred, done⟩
    · cases done
  · rintro ⟨source, moved, transferred, done⟩
    rwa [applyAll_cons_of_transfer transferred]

theorem applyAll_append_eq_ok_iff {turn last : Turn α} {before after : List Flow} :
    turn.applyAll m (before ++ after) = ⟨last, .ok ()⟩ ↔
      ∃ middle, turn.applyAll m before = ⟨middle, .ok ()⟩ ∧
        middle.applyAll m after = ⟨last, .ok ()⟩ := by
  induction before generalizing turn with
  | nil =>
    constructor
    · exact fun done => ⟨turn, rfl, done⟩
    · rintro ⟨middle, ⟨⟩, done⟩
      exact done
  | cons flow rest ih =>
    simp only [List.cons_append, applyAll_cons_eq_ok_iff, ih]
    constructor
    · rintro ⟨source, moved, transferred, middle, first, second⟩
      exact ⟨middle, ⟨source, moved, transferred, first⟩, second⟩
    · rintro ⟨middle, ⟨source, moved, transferred, first⟩, second⟩
      exact ⟨source, moved, transferred, middle, first, second⟩

/-- Flows leave the stocks as they are, and in their order. -/
theorem names_applyAll (turn : Turn α) (flows : List Flow) :
    (turn.applyAll m flows).after.values.names = turn.values.names := by
  refine applyAll_induct (motive := fun later => later.values.names = turn.values.names) rfl ?_ flows
  intro later flow source moved same transferred
  rw [names_leave transferred, same]

/-- Turns without a fault have moved something, if only nothing. -/
theorem exists_moves_of_applyAll {turn : Turn α} {flows : List Flow}
    (done : (turn.applyAll m flows).result = .ok ()) : ∃ moved, turn.moves m flows = .ok moved := by
  induction flows generalizing turn with
  | nil => exact ⟨[], rfl⟩
  | cons flow rest ih =>
    unfold applyAll at done
    split at done
    · rename_i next applied
      obtain ⟨source, moved, transferred, rfl⟩ := exists_of_apply applied
      obtain ⟨others, rest_moves⟩ := ih done
      exact ⟨(flow, moved) :: others,
        bind_eq_ok_iff.2 ⟨_, transferred, bind_eq_ok_iff.2 ⟨_, rest_moves, rfl⟩⟩⟩
    · cases done

/-- Each flow has moved something once, in the order of their turns. -/
theorem flows_of_moves {turn : Turn α} {flows : List Flow} {moves : List (Flow × Transfer α)}
    (done : turn.moves m flows = .ok moves) : moves.map Prod.fst = flows := by
  induction flows generalizing turn moves with
  | nil => rw [← Except.ok.inj done]; rfl
  | cons flow rest ih =>
    obtain ⟨⟨source, first⟩, -, done⟩ := bind_eq_ok_iff.1 done
    obtain ⟨others, rest_done, same⟩ := bind_eq_ok_iff.1 done
    obtain rfl := Except.ok.inj same
    rw [List.map_cons, ih rest_done]

/-- No stock has two entries for what is held back. -/
theorem nodup_pending_applyAll (turn : Turn α) (distinct : turn.pending.names.Nodup)
    (flows : List Flow) : (turn.applyAll m flows).after.pending.names.Nodup := by
  refine applyAll_induct (motive := fun turn => turn.pending.names.Nodup) distinct ?_ flows
  intro turn flow source moved distinct _
  exact Keyed.nodup_names_put distinct ..

/-! ## The end of a round -/

theorem find?_of_foldlM_add {pending : Snapshot α} (distinct : pending.names.Nodup)
    {values after : Snapshot α}
    (committed : pending.foldlM (fun values (name, added) => do
      return values.put name ((← Snapshot.entry values name) + added)) values = .ok after)
    (name : String) :
    after.find? name = match pending.find? name with
      | some added => (values.find? name).map (· + added)
      | none => values.find? name := by
  induction pending generalizing values with
  | nil => rw [← Except.ok.inj committed]; rfl
  | cons entry rest ih =>
    obtain ⟨other, added⟩ := entry
    obtain ⟨fresh, distinct⟩ := List.nodup_cons.1 distinct
    rw [List.foldlM_cons] at committed
    obtain ⟨next, step, committed⟩ := bind_eq_ok_iff.1 committed
    obtain ⟨x, found, step⟩ := bind_eq_ok_iff.1 step
    obtain rfl := Except.ok.inj step
    rw [ih distinct committed]
    by_cases same : other = name
    · have absent : Keyed.find? name rest = none := Keyed.find?_eq_none_iff.2 (same ▸ fresh)
      have here : values.find? name = some x := same ▸ Snapshot.entry_eq_ok_iff.1 found
      rw [absent, Keyed.find?_put, if_pos same, Keyed.find?, if_pos same, here]
      rfl
    · rw [Keyed.find?_put, if_neg same, Keyed.find?, if_neg same]

theorem names_of_foldlM_add {pending values after : Snapshot α}
    (committed : pending.foldlM (fun values (name, added) => do
      return values.put name ((← Snapshot.entry values name) + added)) values = .ok after) :
    after.names = values.names := by
  induction pending generalizing values with
  | nil => rw [← Except.ok.inj committed]
  | cons entry rest ih =>
    rw [List.foldlM_cons] at committed
    obtain ⟨next, step, committed⟩ := bind_eq_ok_iff.1 committed
    obtain ⟨x, found, step⟩ := bind_eq_ok_iff.1 step
    obtain rfl := Except.ok.inj step
    rw [ih committed, Snapshot.names_put (Snapshot.entry_eq_ok_iff.1 found)]

/-- At the end of a round each stock gets what has been held back for it. -/
theorem find?_of_commit {turn : Turn α} (distinct : turn.pending.names.Nodup)
    {after : Snapshot α} (committed : turn.commit = .ok after) (name : String) :
    after.find? name = match turn.pending.find? name with
      | some added => (turn.values.find? name).map (· + added)
      | none => turn.values.find? name :=
  find?_of_foldlM_add distinct committed name

/-- Nothing is held back for a stock that is not there, so all of it can be added. -/
theorem exists_of_commit {turn : Turn α} (known : turn.pending.names ⊆ turn.values.names) :
    ∃ values, turn.commit = .ok values := by
  obtain ⟨values, pending⟩ := turn
  rw [commit]
  induction pending generalizing values with
  | nil => exact ⟨values, rfl⟩
  | cons entry rest ih =>
    obtain ⟨name, added⟩ := entry
    obtain ⟨x, found⟩ := Snapshot.exists_entry (known (List.mem_cons_self ..) : name ∈ values.names)
    have names := Snapshot.names_put (Snapshot.entry_eq_ok_iff.1 found) (x + added)
    obtain ⟨last, done⟩ := ih (values.put name (x + added)) fun other listed => by
      rw [names]
      exact known (List.mem_cons_of_mem _ listed)
    refine ⟨last, ?_⟩
    rw [List.foldlM_cons]
    exact bind_eq_ok_iff.2 ⟨_, bind_eq_ok_iff.2 ⟨x, found, rfl⟩, done⟩

end Turn

/-! ## Rounds -/

namespace Model

/-- The turns of a round that starts from some quantities. -/
def turns (m : Model α) (values : Snapshot α) : Attempt (Turn α) Unit :=
  Turn.applyAll m ⟨values, []⟩ m.flows.reverse

/-- What the flows move in such a round, from the last declared flow to the first. -/
def moves (m : Model α) (values : Snapshot α) : Except Fault (List (Flow × Transfer α)) :=
  Turn.moves m ⟨values, []⟩ m.flows.reverse

/-- A round without a fault leads from some quantities to others. -/
structure Round (m : Model α) (values next : Snapshot α) : Prop where
  done : (m.turns values).result = .ok ()
  committed : (m.turns values).after.commit = .ok next

variable {values next : Snapshot α}

theorem Round.exists_moves (round : m.Round values next) :
    ∃ moves, m.moves values = .ok moves :=
  Turn.exists_moves_of_applyAll round.done

/-- A round is the turns of all flows, each without a fault, with what they have left added up. -/
theorem round_iff :
    m.Round values next ↔
      ∃ last, Turn.applyAll m ⟨values, []⟩ m.flows.reverse = ⟨last, .ok ()⟩ ∧
        last.commit = .ok next := by
  constructor
  · rintro ⟨done, committed⟩
    refine ⟨(m.turns values).after, ?_, committed⟩
    change m.turns values = _
    rw [← done]
  · rintro ⟨last, done, committed⟩
    change m.turns values = _ at done
    exact ⟨by rw [done], by rw [done]; exact committed⟩

/-- After turns without a fault the end of the round cannot fail any more. -/
theorem exists_commit_of_applyAll {last : Turn α} {flows : List Flow}
    (done : Turn.applyAll m ⟨values, []⟩ flows = ⟨last, .ok ()⟩) :
    ∃ next, last.commit = .ok next := by
  have known : (Turn.applyAll m ⟨values, []⟩ flows).after.pending.names ⊆
      (Turn.applyAll m ⟨values, []⟩ flows).after.values.names :=
    Turn.applyAll_induct (motive := fun turn => turn.pending.names ⊆ turn.values.names)
      (List.nil_subset _) (fun _ _ _ _ => Turn.pending_leave_subset) flows
  rw [done] at known
  exact Turn.exists_of_commit known

/-- From the same quantities a round leads to the same. -/
theorem Round.next_unique {other : Snapshot α} (round : m.Round values next)
    (round' : m.Round values other) : next = other :=
  Except.ok.inj (round.committed.symm.trans round'.committed)

/-- After a round each stock has what its turns have left and what they have held back for it. -/
theorem Round.find?_next (round : m.Round values next) (name : String) :
    next.find? name = match (m.turns values).after.pending.find? name with
      | some added => ((m.turns values).after.values.find? name).map (· + added)
      | none => (m.turns values).after.values.find? name :=
  Turn.find?_of_commit (Turn.nodup_pending_applyAll ⟨values, []⟩ List.nodup_nil _) round.committed name

/-- A round leaves the stocks as they are, and in their order. -/
theorem Round.names_next (round : m.Round values next) :
    next.names = values.names := by
  rw [Turn.names_of_foldlM_add round.committed]
  exact Turn.names_applyAll ..

end Model

namespace State

theorem round_of_advance {state : State α} (done : state.advance.result = .ok ()) :
    state.model.Round state.values state.advance.after.values ∧
      state.advance.after.model = state.model := by
  unfold advance at done ⊢
  simp only at done ⊢
  split at done
  · cases done
  · cases done
  · rename_i values turned committed
    exact ⟨⟨turned, committed⟩, rfl⟩

/-- Only a turn makes a round fail, for what has been held back can always be added. -/
theorem turns_of_advance_error {state : State α} {fault : Fault}
    (failed : state.advance.result = .error fault) :
    (state.model.turns state.values).result = .error fault := by
  unfold advance at failed
  simp only at failed
  split at failed
  · rename_i fault' stuck
    exact Except.error.inj failed ▸ stuck
  · rename_i turned lost
    have done : Turn.applyAll state.model ⟨state.values, []⟩ state.model.flows.reverse =
        ⟨(state.model.turns state.values).after, .ok ()⟩ := by
      rw [← turned]
      rfl
    obtain ⟨next, committed⟩ := Model.exists_commit_of_applyAll done
    cases committed.symm.trans lost
  · cases failed

/-- A round that fails in a turn is not counted, and leaves what the turns have left. -/
theorem advance_of_turns_error {state : State α} {fault : Fault}
    (stuck : (state.model.turns state.values).result = .error fault) :
    state.advance =
      ⟨{ state with values := (state.model.turns state.values).after.values }, .error fault⟩ := by
  change (Turn.applyAll state.model ⟨state.values, []⟩ state.model.flows.reverse).result = _ at stuck
  unfold advance
  simp only [stuck]
  rfl

theorem values_of_advance_error {state : State α} {fault : Fault}
    (failed : state.advance.result = .error fault) :
    state.advance.after.values = (state.model.turns state.values).after.values := by
  rw [advance_of_turns_error (turns_of_advance_error failed)]

/-- A round of its model takes a state one round further. -/
theorem advance_of_round {state : State α} {next : Snapshot α}
    (round : state.model.Round state.values next) :
    state.advance = ⟨{ state with round := state.round + 1, values := next }, .ok ()⟩ := by
  have turned : (Turn.applyAll state.model ⟨state.values, []⟩ state.model.flows.reverse).result =
      .ok () := round.done
  have committed : (Turn.applyAll state.model ⟨state.values, []⟩
      state.model.flows.reverse).after.commit = .ok next := round.committed
  unfold advance
  simp only [turned, committed]

end State

end StockFlow
