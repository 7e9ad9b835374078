import Mathlib.Data.List.Chain
import Mathlib.Data.List.Forall2
import StockFlow.Proofs.Simulation.Round

/-!
# Runs

What a run comes to is settled by the quantities before the first round and by the rounds: a run
without a fault is nothing but a chain of rounds that begins with them (`Model.run_eq_ok_iff`). So a
law of rounds gives one of runs (`Model.run_induct`), and two models whose rounds keep up with each
other have runs that do (`Model.exists_run_of_round`).
-/

namespace StockFlow

variable {α : Type} [Quantity α] {m m' : Model α}

namespace State

/-- The snapshots of a state begin with its own quantities and go on by rounds of its model. -/
theorem snapshots_eq_ok_iff {state : State α} {rounds : Nat} {snapshots : List (Snapshot α)} :
    state.snapshots rounds = .ok snapshots ↔
      ∃ later, snapshots = state.values :: later ∧ later.length = rounds ∧
        (state.values :: later).IsChain state.model.Round := by
  constructor
  · intro made
    induction rounds generalizing state snapshots with
    | zero => exact ⟨[], (Except.ok.inj made).symm, rfl, .singleton _⟩
    | succ rounds ih =>
      unfold State.snapshots at made
      simp only at made
      split at made
      · cases made
      · rename_i done
        obtain ⟨round, same⟩ := round_of_advance done
        obtain ⟨others, rest, rfl⟩ := map_eq_ok_iff.1 made
        obtain ⟨later, rfl, length, chain⟩ := ih rest
        rw [same] at chain
        exact ⟨_, rfl, congrArg (· + 1) length, .cons_cons round chain⟩
  · rintro ⟨later, rfl, rfl, chain⟩
    induction later generalizing state with
    | nil => rfl
    | cons next rest ih =>
      obtain ⟨round, chain⟩ := List.isChain_cons_cons.1 chain
      rw [List.length_cons, snapshots, advance_of_round round]
      exact map_eq_ok_iff.2 ⟨_, ih chain, rfl⟩

end State

namespace Model

variable {rounds : Nat} {overrides overrides' : Overrides α} {snapshots : List (Snapshot α)}

theorem simulate_eq_ok_iff {state : State α} :
    m.simulate overrides = .ok state ↔ State.start m overrides = .ok state := by
  constructor
  · intro simulated
    obtain ⟨_, -, started⟩ := bind_eq_ok_iff.1 simulated
    exact started
  · intro started
    obtain ⟨-, order, _, valid, -, -⟩ := State.start_eq_ok_iff.1 started
    exact bind_eq_ok_iff.2 ⟨order, valid, started⟩

/-- A run without a fault is a chain of rounds that begins with the quantities of a state that could
be made. -/
theorem run_eq_ok_iff :
    m.run rounds overrides = .ok snapshots ↔
      ∃ first, State.start m overrides = .ok ⟨m, 0, first⟩ ∧ snapshots.head? = some first ∧
        snapshots.length = rounds + 1 ∧ snapshots.IsChain m.Round := by
  unfold run
  rw [bind_eq_ok_iff]
  constructor
  · rintro ⟨state, simulated, made⟩
    have started := simulate_eq_ok_iff.1 simulated
    obtain ⟨-, _, values, -, -, rfl⟩ := State.start_eq_ok_iff.1 started
    obtain ⟨later, rfl, rfl, chain⟩ := State.snapshots_eq_ok_iff.1 made
    exact ⟨values, started, rfl, rfl, chain⟩
  · rintro ⟨first, started, head, length, chain⟩
    obtain ⟨later, rfl⟩ := List.head?_eq_some_iff.1 head
    exact ⟨_, simulate_eq_ok_iff.2 started,
      State.snapshots_eq_ok_iff.2 ⟨later, rfl, Nat.succ.inj length, chain⟩⟩

/-- A run begins with the quantities of the state before the first round and goes on by rounds. -/
theorem exists_start_of_run (ran : m.run rounds overrides = .ok snapshots) :
    ∃ state later, State.start m overrides = .ok state ∧ snapshots = state.values :: later ∧
      (state.values :: later).IsChain m.Round := by
  obtain ⟨first, started, head, -, chain⟩ := run_eq_ok_iff.1 ran
  obtain ⟨later, rfl⟩ := List.head?_eq_some_iff.1 head
  exact ⟨_, later, started, rfl, chain⟩

theorem isChain_of_run (ran : m.run rounds overrides = .ok snapshots) :
    ∃ first later, snapshots = first :: later ∧ (first :: later).IsChain m.Round := by
  obtain ⟨state, later, -, same, chain⟩ := exists_start_of_run ran
  exact ⟨state.values, later, same, chain⟩

/-- What holds of the first snapshot and is kept by every round holds of all snapshots of a run. -/
theorem run_induct {motive : Snapshot α → Prop} (ran : m.run rounds overrides = .ok snapshots)
    (step : ∀ values next, m.Round values next → motive values → motive next)
    (start : ∀ first, snapshots.head? = some first → motive first) :
    ∀ values ∈ snapshots, motive values := by
  obtain ⟨first, later, rfl, chain⟩ := isChain_of_run ran
  exact chain.induction motive _ step fun _ => start first rfl

/-- All snapshots of a run have the same stocks in the same order. -/
theorem names_of_run {first : Snapshot α} (ran : m.run rounds overrides = .ok snapshots)
    (begins : snapshots.head? = some first) : ∀ values ∈ snapshots, values.names = first.names := by
  refine run_induct ran (fun values next round same => ?_) (fun values start => ?_)
  · rw [round.names_next, same]
  · rw [Option.some.inj (start.symm.trans begins)]

/-! ## Two models -/

/-- Rounds that keep up with those of another model make chains that do. -/
theorem exists_isChain_of_round {R : Snapshot α → Snapshot α → Prop}
    (step : ∀ values next values', m.Round values next → R values values' →
      ∃ next', m'.Round values' next' ∧ R next next')
    {first first' : Snapshot α} {later : List (Snapshot α)} (related : R first first')
    (chain : (first :: later).IsChain m.Round) :
    ∃ later', (first' :: later').IsChain m'.Round ∧ later.Forall₂ R later' := by
  induction later generalizing first first' with
  | nil => exact ⟨[], .singleton _, .nil⟩
  | cons next rest ih =>
    obtain ⟨round, chain⟩ := List.isChain_cons_cons.1 chain
    obtain ⟨next', round', related'⟩ := step first next first' round related
    obtain ⟨rest', chain', all⟩ := ih related' chain
    exact ⟨next' :: rest', .cons_cons round' chain', .cons related' all⟩

/-- If a model starts related to another one and its rounds keep up with those of the other, it has
all runs that the other one has, related snapshot by snapshot. -/
theorem exists_run_of_round {R : Snapshot α → Snapshot α → Prop}
    (start : ∀ first, State.start m overrides = .ok ⟨m, 0, first⟩ →
      ∃ first', State.start m' overrides' = .ok ⟨m', 0, first'⟩ ∧ R first first')
    (step : ∀ values next values', m.Round values next → R values values' →
      ∃ next', m'.Round values' next' ∧ R next next')
    (ran : m.run rounds overrides = .ok snapshots) :
    ∃ snapshots', m'.run rounds overrides' = .ok snapshots' ∧
      snapshots.Forall₂ R snapshots' := by
  obtain ⟨first, started, head, length, chain⟩ := run_eq_ok_iff.1 ran
  obtain ⟨later, rfl⟩ := List.head?_eq_some_iff.1 head
  obtain ⟨first', started', related⟩ := start first started
  obtain ⟨later', chain', all⟩ := exists_isChain_of_round step related chain
  have all : List.Forall₂ R (first :: later) (first' :: later') := .cons related all
  exact ⟨first' :: later',
    run_eq_ok_iff.2 ⟨first', started', rfl, all.length_eq.symm.trans length, chain'⟩, all⟩

end Model

end StockFlow
