import StockFlow.Proofs.Rule.TransferBounds
import StockFlow.Proofs.Simulation.Runs

/-!
# Bounds of runs

Whatever flows there are, in exact arithmetic a stock with a fixed maximum does not pass it
(`Model.run_within_maximum`), flows take no more from a stock in a round than it holds at its
beginning, and no stock falls below zero or what it starts with (`Model.run_nonnegative`).

Inside a round the first is a bound on what a stock holds together with what is held back for it.
-/

namespace StockFlow

open Quantity
open Exact (Nonneg NotBelow)

variable {m : Model Exact} {flow : Flow} {source : Exact} {moved : Transfer Exact} {name : String}

namespace Turn

variable {turn : Turn Exact}

/-! ## One turn -/

/-- What flows move is never less than nothing and, taken from a finite source, no more than that
holds. -/
theorem removed_le_of_transfer (transferred : turn.transfer m flow = .ok (source, moved)) :
    Nonneg moved.removed ∧ Nonneg moved.added ∧
      ∀ held, source = .finite held →
        ∃ r, moved.removed = .finite r ∧ 0 ≤ r ∧ r ≤ max 0 held := by
  obtain ⟨-, _, _, _, _, -, -, -, -, rfl⟩ := exists_of_transfer transferred
  refine ⟨FlowKind.nonneg_removed .., FlowKind.nonneg_added .., ?_⟩
  rintro held rfl
  exact FlowKind.removed_le ..

/-- What flows bring fits between what the destination holds or is to get, and its maximum. -/
theorem added_le_of_transfer {stock : Stock} {most held pending : Rat}
    (transferred : turn.transfer m flow = .ok (source, moved))
    (found : m.stock? flow.destination = some stock)
    (fixed : stock.maximum.evalAt turn.values = .ok (.finite most))
    (holds : turn.values.find? flow.destination = some (.finite held))
    (waits : turn.heldBack flow.destination = .finite pending) (nonneg : 0 ≤ held + pending) :
    ∃ a, moved.added = .finite a ∧ 0 ≤ a ∧ held + pending + a ≤ max most (held + pending) := by
  obtain ⟨-, held', stock', maximum, _, holds', found', fixed', -, rfl⟩ :=
    exists_of_transfer transferred
  obtain rfl := Option.some.inj (holds'.symm.trans holds)
  obtain rfl := Option.some.inj (found'.symm.trans found)
  obtain rfl := Except.ok.inj (fixed'.symm.trans fixed)
  have level_eq : turn.level (.finite held) flow.destination = .finite (held + pending) := by
    rw [level, waits]
    rfl
  rw [level_eq, Exact.isInfinite_finite]
  obtain ⟨a, same, pos, le⟩ :=
    flow.rule.kind.added_le _ source nonneg (most + -(held + pending))
  refine ⟨a, same, pos, ?_⟩
  rcases le_max_iff.1 le with none | fits
  · exact le_max_of_le_right (by linarith)
  · exact le_max_of_le_left (by linarith)

/-! ## Within the maximum -/

/-- What a stock holds and what is held back for it are not negative and together pass no bound. -/
def Within (turn : Turn Exact) (name : String) (top : Rat) : Prop :=
  ∃ held pending, turn.values.find? name = some (.finite held) ∧
    turn.heldBack name = .finite pending ∧ 0 ≤ held ∧ 0 ≤ pending ∧ held + pending ≤ top

theorem Within.leave {stock : Stock} {most top : Rat} (within : turn.Within name top)
    (found : m.stock? name = some stock)
    (fixed : stock.maximum.evalAt turn.values = .ok (.finite most)) (below : most ≤ top)
    (transferred : turn.transfer m flow = .ok (source, moved)) :
    (turn.leave flow source moved).Within name top := by
  obtain ⟨held, pending, holds, waits, held_nonneg, pending_nonneg, le⟩ := within
  have taken : ∃ left, (turn.leave flow source moved).values.find? name = some (.finite left) ∧
      0 ≤ left ∧ left ≤ held := by
    rw [find?_values_leave]
    split
    · rename_i same
      obtain rfl := Option.some.inj
        ((exists_of_transfer transferred).1.symm.trans (same ▸ holds))
      obtain ⟨r, removed, pos, small⟩ := (removed_le_of_transfer transferred).2.2 held rfl
      rw [max_eq_right held_nonneg] at small
      exact ⟨held + -r, by rw [removed]; rfl, by linarith, by linarith⟩
    · exact ⟨held, holds, held_nonneg, le_rfl⟩
  have brought : ∃ waiting, (turn.leave flow source moved).heldBack name = .finite waiting ∧
      0 ≤ waiting ∧ held + waiting ≤ top := by
    rw [heldBack_leave]
    split
    · rename_i same
      obtain ⟨a, added, pos, fits⟩ := added_le_of_transfer transferred (same ▸ found) fixed
        (same ▸ holds) (same ▸ waits) (add_nonneg held_nonneg pending_nonneg)
      refine ⟨pending + a, by rw [waits, added]; rfl, add_nonneg pending_nonneg pos, ?_⟩
      calc held + (pending + a) = held + pending + a := (add_assoc ..).symm
        _ ≤ max most (held + pending) := fits
        _ ≤ top := max_le below le
    · exact ⟨pending, waits, pending_nonneg, le⟩
  obtain ⟨left, found_left, left_nonneg, left_le⟩ := taken
  obtain ⟨waiting, found_waiting, waiting_nonneg, waiting_le⟩ := brought
  exact ⟨left, waiting, found_left, found_waiting, left_nonneg, waiting_nonneg, by linarith⟩

/-! ## What flows take -/

/-- Taking part of what is there, and then part of what is left, takes part of what is there. -/
theorem add_le_max {held r total : Rat} (nonneg : 0 ≤ r) (first : r ≤ max 0 held)
    (others : total ≤ max 0 (held + -r)) : r + total ≤ max 0 held := by
  rcases le_total 0 held with positive | negative
  · rw [max_eq_right positive] at first ⊢
    rw [max_eq_right (by linarith)] at others
    linarith
  · rw [max_eq_left negative] at first ⊢
    rw [max_eq_left (by linarith)] at others
    linarith

/-- What flows take from a stock altogether is no more than it held before the first of them. -/
theorem drained_le {flows : List Flow} {moved : List (Flow × Transfer Exact)}
    (done : turn.moves m flows = .ok moved) :
    Nonneg (drained name moved) ∧
      ∀ held, turn.values.find? name = some (.finite held) →
        ∃ total, Turn.drained name moved = .finite total ∧ total ≤ max 0 held := by
  induction flows generalizing turn moved with
  | nil =>
    obtain rfl := Except.ok.inj done
    exact ⟨Exact.nonneg_finite_iff.2 le_rfl, fun held _ => ⟨0, rfl, le_max_left ..⟩⟩
  | cons flow rest ih =>
    obtain ⟨⟨source, first⟩, transferred, done⟩ := bind_eq_ok_iff.1 done
    obtain ⟨others, rest_done, same⟩ := bind_eq_ok_iff.1 done
    obtain rfl := Except.ok.inj same
    obtain ⟨others_nonneg, others_le⟩ := ih rest_done
    rw [find?_values_leave] at others_le
    obtain ⟨removed_nonneg, -, removed_le⟩ := removed_le_of_transfer transferred
    unfold drained
    split
    · rename_i here
      rw [if_pos here] at others_le
      refine ⟨Exact.nonneg_add removed_nonneg others_nonneg, fun held holds => ?_⟩
      obtain rfl := Option.some.inj ((exists_of_transfer transferred).1.symm.trans (here ▸ holds))
      obtain ⟨r, removed, pos, small⟩ := removed_le held rfl
      obtain ⟨total, others_eq, others_small⟩ :=
        others_le (held + -r) (by rw [removed]; rfl)
      exact ⟨r + total, by rw [removed, others_eq]; rfl, add_le_max pos small others_small⟩
    · rename_i elsewhere
      rw [if_neg elsewhere] at others_le
      exact ⟨others_nonneg, others_le⟩

/-! ## Not below zero -/

/-- A stock has at least `low`, if it is there, and what is held back for it is not negative. -/
structure AtLeast (turn : Turn Exact) (name : String) (low : Exact) : Prop where
  held : ∀ x, turn.values.find? name = some x → NotBelow x low
  waiting : Nonneg (turn.heldBack name)

theorem AtLeast.leave {low : Exact} (above : turn.AtLeast name low)
    (nonpositive : NotBelow Quantity.zero low)
    (transferred : turn.transfer m flow = .ok (source, moved)) :
    (turn.leave flow source moved).AtLeast name low := by
  obtain ⟨removed_nonneg, added_nonneg, removed_le⟩ := removed_le_of_transfer transferred
  constructor
  · intro x left
    rw [find?_values_leave] at left
    split at left
    · rename_i here
      obtain rfl := Option.some.inj left
      have before := above.held source (here ▸ (exists_of_transfer transferred).1)
      exact before.sub nonpositive removed_nonneg removed_le
    · exact above.held x left
  · rw [heldBack_leave]
    split
    · exact Exact.nonneg_add above.waiting added_nonneg
    · exact above.waiting

end Turn

/-! ## Rounds and runs -/

namespace Model

theorem Round.find?_eq_add {values next : Snapshot Exact} (round : m.Round values next)
    (name : String) :
    next.find? name = ((m.turns values).after.values.find? name).map
      (· + (m.turns values).after.heldBack name) := by
  rw [round.find?_next, Turn.heldBack]
  cases (m.turns values).after.pending.find? name with
  | some added => rfl
  | none => cases (m.turns values).after.values.find? name <;> simp

theorem Round.le_of_le {stock : Stock} {most top : Rat} (found : m.stock? name = some stock)
    (fixed : ∀ values, stock.maximum.evalAt values = .ok (Exact.finite most)) (below : most ≤ top)
    {values next : Snapshot Exact} (round : m.Round values next)
    (start : ∃ x, values.find? name = some (.finite x) ∧ 0 ≤ x ∧ x ≤ top) :
    ∃ x, next.find? name = some (.finite x) ∧ 0 ≤ x ∧ x ≤ top := by
  obtain ⟨x, holds, nonneg, le⟩ := start
  have within : (m.turns values).after.Within name top := by
    refine Turn.applyAll_induct (motive := (Turn.Within · name top))
      ⟨x, 0, holds, rfl, nonneg, le_rfl, by simpa using le⟩ ?_ _
    intro turn flow source moved within transferred
    exact within.leave found (fixed turn.values) below transferred
  obtain ⟨held, pending, left, waits, held_nonneg, pending_nonneg, le⟩ := within
  refine ⟨held + pending, ?_, add_nonneg held_nonneg pending_nonneg, le⟩
  rw [round.find?_eq_add, left, waits]
  rfl

theorem Round.notBelow {low : Exact} (nonpositive : NotBelow Quantity.zero low)
    {values next : Snapshot Exact} (round : m.Round values next)
    (start : ∀ x, values.find? name = some x → NotBelow x low) :
    ∀ x, next.find? name = some x → NotBelow x low := by
  have above : (m.turns values).after.AtLeast name low := by
    refine Turn.applyAll_induct (motive := (Turn.AtLeast · name low))
      ⟨start, by exact Exact.nonneg_finite_iff.2 le_rfl⟩ ?_ _
    intro turn flow source moved above transferred
    exact above.leave nonpositive transferred
  intro x found
  rw [round.find?_eq_add] at found
  obtain ⟨held, left, rfl⟩ := Option.map_eq_some_iff.1 found
  exact (above.held held left).add nonpositive above.waiting

variable {rounds : Nat} {overrides : Overrides Exact} {snapshots : List (Snapshot Exact)}

/-- A stock whose maximum is a fixed number, and that starts with a number that is not negative,
stays a number that is not negative and passes neither its maximum nor what it started with. -/
theorem run_within_maximum {stock : Stock} {first : Snapshot Exact} {most start : Rat}
    (ran : m.run rounds overrides = .ok snapshots) (found : m.stock? name = some stock)
    (closed : stock.maximum.references = [])
    (fixed : stock.maximum.evalAt ([] : Snapshot Exact) = .ok (.finite most))
    (starts : snapshots.head? = some first) (holds : first.find? name = some (.finite start))
    (nonneg : 0 ≤ start) :
    ∀ values ∈ snapshots,
      ∃ x, values.find? name = some (.finite x) ∧ 0 ≤ x ∧ x ≤ max most start := by
  have everywhere : ∀ values, stock.maximum.evalAt values = .ok (Exact.finite most) := by
    intro values
    rw [← fixed]
    exact stock.maximum.evalAt_congr (by simp [closed])
  refine run_induct ran (fun values next round kept => ?_) (fun values head => ?_)
  · exact round.le_of_le found everywhere (le_max_left ..) kept
  · obtain rfl := Option.some.inj (head.symm.trans starts)
    exact ⟨start, holds, nonneg, le_max_right ..⟩

/-- Two flows compete for the room that a stock has left. -/
def competing : Model Exact where
  stocks := [
    { name := "supply", initial := .value (.whole "10") },
    { name := "tank", initial := .value (.whole "1"), maximum := .value (.whole "4") }]
  flows := [
    ⟨"supply", "tank", ⟨.rate, .value (.whole "2")⟩⟩,
    ⟨"supply", "tank", ⟨.leak, .value (.decimal "0.2")⟩⟩]

theorem run_competing : competing.run 2 [] = .ok [
    [("supply", .finite 10), ("tank", .finite 1)],
    [("supply", .finite 7), ("tank", .finite 4)],
    [("supply", .finite 7), ("tank", .finite 4)]] := by
  decide +kernel

theorem run_within_maximum_competing :
    ∃ snapshots, competing.run 2 [] = .ok snapshots ∧
      ∀ values ∈ snapshots,
        ∃ x, values.find? "tank" = some (.finite x) ∧ 0 ≤ x ∧ x ≤ max 4 1 :=
  ⟨_, run_competing, run_within_maximum run_competing rfl rfl rfl rfl rfl (by decide)⟩

/-- In a round from some quantities, what flows take from a stock altogether is not negative, and
from a stock that begins the round with a number no more than that. -/
def DrainsWithin (m : Model Exact) (values : Snapshot Exact) : Prop :=
  ∃ moved, m.moves values = .ok moved ∧ ∀ name, Nonneg (Turn.drained name moved) ∧
    ∀ held, values.find? name = some (.finite held) →
      ∃ total, Turn.drained name moved = .finite total ∧ total ≤ max 0 held

/-- In every round of a run flows take no more from a stock than it holds when the round begins,
and no stock ever is below zero, or below what it starts with if that is less. -/
theorem run_nonnegative (ran : m.run rounds overrides = .ok snapshots) :
    snapshots.IsChain (fun values next => m.Round values next ∧ m.DrainsWithin values) ∧
      ∀ first, snapshots.head? = some first →
        ∀ values ∈ snapshots, ∀ name x, values.find? name = some x →
          ∃ start, first.find? name = some start ∧ NotBelow x (lesser Quantity.zero start) := by
  constructor
  · obtain ⟨first, later, rfl, chain⟩ := isChain_of_run ran
    refine chain.imp fun values next round => ⟨round, ?_⟩
    obtain ⟨moved, done⟩ := round.exists_moves
    exact ⟨moved, done, fun name => Turn.drained_le done⟩
  · intro first head values listed name x found
    have names := names_of_run ran head values listed
    obtain ⟨start, starts⟩ :=
      Keyed.mem_names_iff.1 (names ▸ Keyed.mem_names_iff.2 ⟨x, found⟩)
    refine ⟨start, starts, ?_⟩
    refine run_induct
      (motive := fun values => ∀ x, values.find? name = some x → NotBelow x (lesser Quantity.zero start))
      ran (fun values next round kept => ?_) (fun values begins => ?_) values listed x found
    · exact round.notBelow (Exact.notBelow_lesser_zero start) kept
    · intro y holds
      obtain rfl := Option.some.inj (begins.symm.trans head)
      obtain rfl := Option.some.inj (holds.symm.trans starts)
      exact Exact.notBelow_lesser_self _

theorem run_nonnegative_competing :
    ∃ snapshots, competing.run 2 [] = .ok snapshots ∧
      snapshots.IsChain (fun values next =>
        competing.Round values next ∧ competing.DrainsWithin values) ∧
      ∀ first, snapshots.head? = some first →
        ∀ values ∈ snapshots, ∀ name x, values.find? name = some x →
          ∃ start, first.find? name = some start ∧ NotBelow x (lesser Quantity.zero start) :=
  ⟨_, run_competing, run_nonnegative run_competing⟩

end Model

end StockFlow
