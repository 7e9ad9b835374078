import Mathlib.Tactic.Ring
import StockFlow.Proofs.Simulation.Bounds

/-!
# Conservation

In exact arithmetic a round gives each stock what it held, less what the flows out of it have taken,
and what the flows into it have brought, each flow counted once (`Model.run_conserves`). Where what
is taken arrives, as it does for all kinds but conversions, the sum of all stocks stays the same.

Inside a round the sum is that of what stocks hold and what is held back for them.
-/

namespace StockFlow

open Quantity

/-- A number, and no infinity. -/
def Exact.IsFinite (x : Exact) : Prop :=
  ∃ q, x = .finite q

/-- Both ends of a transfer are numbers. -/
structure Transfer.IsFinite (moved : Transfer Exact) : Prop where
  removed : moved.removed.IsFinite
  added : moved.added.IsFinite

instance : DecidablePred Exact.IsFinite
  | .finite q => .isTrue ⟨q, rfl⟩
  | .nan | .infinite _ => .isFalse nofun

instance : DecidablePred Transfer.IsFinite := fun _ =>
  decidable_of_iff (_ ∧ _) ⟨fun ⟨removed, added⟩ => ⟨removed, added⟩, fun h => ⟨h.removed, h.added⟩⟩

theorem Exact.add_eq_finite_iff {x y : Exact} {t : Rat} :
    x + y = .finite t ↔ ∃ p q, x = .finite p ∧ y = .finite q ∧ p + q = t := by
  constructor
  · intro sum
    cases x with
    | nan => cases sum
    | infinite s =>
      cases y with
      | nan => cases sum
      | infinite s' =>
        rw [add_eq, Exact.add] at sum
        split at sum <;> cases sum
      | finite q => cases sum
    | finite p =>
      cases y with
      | nan => cases sum
      | infinite s => cases sum
      | finite q => exact ⟨p, q, rfl, rfl, Exact.finite.inj sum⟩
  · rintro ⟨p, q, rfl, rfl, rfl⟩
    rfl

/-- All that a flow takes arrives, unless it converts. -/
theorem FlowKind.added_eq_removed {kind : FlowKind} (moves : kind ≠ .conversion)
    (evaluated source destination room : Exact) :
    (kind.transfer evaluated source destination room).added =
      (kind.transfer evaluated source destination room).removed := by
  cases kind with
  | rate => exact Transfer.added_rate ..
  | conversion => exact absurd rfl moves
  | leak => rfl

/-! ## The sum of a snapshot -/

/-- The sum of all quantities. -/
def Snapshot.total {α : Type} [Quantity α] (values : Snapshot α) : α :=
  values.foldr (fun entry rest => entry.2 + rest) Quantity.zero

namespace Snapshot

variable {values : Snapshot Exact} {name : String} {t : Rat}

theorem exists_total (numbers : ∀ entry ∈ values, entry.2.IsFinite) :
    ∃ t, values.total = .finite t := by
  induction values with
  | nil => exact ⟨0, rfl⟩
  | cons head rest ih =>
    obtain ⟨p, same⟩ := numbers head (List.mem_cons_self ..)
    obtain ⟨t, sum⟩ := ih fun entry listed => numbers entry (List.mem_cons_of_mem _ listed)
    exact ⟨p + t, Exact.add_eq_finite_iff.2 ⟨p, t, same, sum, rfl⟩⟩

/-- Another number for a stock changes the sum by the difference. -/
theorem total_put {x : Exact} (sum : values.total = .finite t)
    (found : values.find? name = some x) :
    ∃ p, x = .finite p ∧
      ∀ q, Snapshot.total (values.put name (.finite q)) = .finite (t - p + q) := by
  induction values generalizing t with
  | nil => cases found
  | cons head rest ih =>
    obtain ⟨p, others, head_eq, rest_sum, rfl⟩ := Exact.add_eq_finite_iff.1 sum
    by_cases same : head.1 = name
    · obtain rfl : head.2 = x := by simpa [Keyed.find?, same] using found
      refine ⟨p, head_eq, fun q => ?_⟩
      have put_eq : Keyed.put name (Exact.finite q) (head :: rest) =
          (head.1, .finite q) :: rest := by
        simp [Keyed.put, same]
      rw [put_eq]
      exact Exact.add_eq_finite_iff.2 ⟨q, others, rfl, rest_sum, by ring⟩
    · obtain ⟨p', x_eq, put_sum⟩ := ih rest_sum (by simpa [Keyed.find?, same] using found)
      refine ⟨p', x_eq, fun q => ?_⟩
      have put_eq : Keyed.put name (Exact.finite q) (head :: rest) =
          head :: Keyed.put name (.finite q) rest := by
        simp [Keyed.put, same]
      rw [put_eq]
      exact Exact.add_eq_finite_iff.2 ⟨p, _, head_eq, put_sum q, by ring⟩

/-- A number for a new stock is added to the sum. -/
theorem total_put_of_fresh (sum : values.total = .finite t) (fresh : values.find? name = none)
    (q : Rat) :
    Snapshot.total (values.put name (.finite q)) = .finite (t + q) := by
  induction values generalizing t with
  | nil =>
    obtain rfl : (0 : Rat) = t := Exact.finite.inj sum
    exact Exact.add_eq_finite_iff.2 ⟨q, 0, rfl, rfl, by ring⟩
  | cons head rest ih =>
    obtain ⟨p, others, head_eq, rest_sum, rfl⟩ := Exact.add_eq_finite_iff.1 sum
    have other : head.1 ≠ name := by
      intro same
      simp [Keyed.find?, same] at fresh
    have put_eq : Keyed.put name (Exact.finite q) (head :: rest) =
        head :: Keyed.put name (.finite q) rest := by
      simp [Keyed.put, other]
    rw [put_eq]
    have rest_fresh : Keyed.find? name rest = none := by simpa [Keyed.find?, other] using fresh
    exact Exact.add_eq_finite_iff.2 ⟨p, _, head_eq, ih rest_sum rest_fresh, by ring⟩

end Snapshot

namespace Turn

variable {m : Model Exact} {turn : Turn Exact} {flow : Flow} {source : Exact}
  {moved : Transfer Exact} {name : String}

/-! ## Each stock in a round -/

/-- What flows have brought to a stock altogether. -/
def filled {α : Type} [Quantity α] (name : String) : List (Flow × Transfer α) → α
  | [] => Quantity.zero
  | (flow, moved) :: rest =>
    if flow.destination = name then moved.added + filled name rest else filled name rest

/-- The turns of flows leave a stock with what they have not taken, and what they bring to it is
held back for it. -/
theorem settled_of_moves {flows : List Flow} {moves : List (Flow × Transfer Exact)}
    (done : turn.moves m flows = .ok moves) (numbers : ∀ move ∈ moves, move.2.IsFinite)
    (name : String) :
    ∃ taken brought, drained name moves = .finite taken ∧ filled name moves = .finite brought ∧
      (∀ held, turn.values.find? name = some (.finite held) →
        (turn.applyAll m flows).after.values.find? name = some (.finite (held - taken))) ∧
      ∀ waiting, turn.heldBack name = .finite waiting →
        (turn.applyAll m flows).after.heldBack name = .finite (waiting + brought) := by
  induction flows generalizing turn moves with
  | nil =>
    obtain rfl := Except.ok.inj done
    refine ⟨0, 0, rfl, rfl, fun held holds => ?_, fun waiting waits => ?_⟩
    · rw [sub_zero]
      exact holds
    · rw [add_zero]
      exact waits
  | cons flow rest ih =>
    obtain ⟨⟨source, first⟩, transferred, done⟩ := bind_eq_ok_iff.1 done
    obtain ⟨others, rest_done, same⟩ := bind_eq_ok_iff.1 done
    obtain rfl := Except.ok.inj same
    obtain ⟨⟨r, removed⟩, ⟨a, added⟩⟩ := numbers (flow, first) (List.mem_cons_self ..)
    obtain ⟨taken, brought, drained_eq, filled_eq, values_eq, pending_eq⟩ :=
      ih rest_done fun move listed => numbers move (List.mem_cons_of_mem _ listed)
    rw [applyAll_cons_of_transfer transferred]
    simp only [find?_values_leave, heldBack_leave] at values_eq pending_eq
    -- of the two ends of the flow the stock may be none, one or both
    refine ⟨if flow.source = name then r + taken else taken,
      if flow.destination = name then a + brought else brought, ?_, ?_, ?_, ?_⟩
    · rw [drained, drained_eq, removed]
      split <;> rfl
    · rw [filled, filled_eq, added]
      split <;> rfl
    · intro held holds
      by_cases here : flow.source = name
      · obtain rfl := Option.some.inj
          ((exists_of_transfer transferred).1.symm.trans (here ▸ holds))
        rw [if_pos here] at values_eq ⊢
        rw [values_eq (held - r) (by rw [removed, sub_eq_add_neg]; rfl), sub_sub]
      · rw [if_neg here] at values_eq ⊢
        exact values_eq held holds
    · intro waiting waits
      by_cases here : flow.destination = name
      · rw [if_pos here] at pending_eq ⊢
        rw [pending_eq (waiting + a) (by rw [waits, added]; rfl), add_assoc]
      · rw [if_neg here] at pending_eq ⊢
        exact pending_eq waiting waits

/-! ## The sum in a round -/

/-- What stocks hold and what is held back for them are numbers that add up to a sum. -/
def AddsUp (turn : Turn Exact) (t : Rat) : Prop :=
  turn.values.total + turn.pending.total = .finite t

theorem total_pending_leave {waiting a : Rat} (sum : turn.pending.total = .finite waiting)
    (added : moved.added = .finite a) :
    (turn.leave flow source moved).pending.total = .finite (waiting + a) := by
  show Snapshot.total (turn.pending.put flow.destination
    (turn.heldBack flow.destination + moved.added)) = _
  rw [heldBack, added]
  cases found : turn.pending.find? flow.destination with
  | none =>
    rw [Option.getD_none, ← Snapshot.total_put_of_fresh sum found a]
    exact congrArg (fun q => Snapshot.total (turn.pending.put _ (.finite q))) (zero_add a)
  | some x =>
    obtain ⟨p, rfl, put_sum⟩ := Snapshot.total_put sum found
    refine (put_sum (p + a)).trans (congrArg Exact.finite ?_)
    ring

/-- What a flow that does not convert takes from the sum it gives back. -/
theorem AddsUp.leave {t : Rat} (sum : turn.AddsUp t) (moves : flow.rule.kind ≠ .conversion)
    (transferred : turn.transfer m flow = .ok (source, moved)) :
    (turn.leave flow source moved).AddsUp t := by
  obtain ⟨held, waiting, held_sum, waiting_sum, rfl⟩ := Exact.add_eq_finite_iff.1 sum
  obtain ⟨found, _, _, _, _, -, -, -, -, moved_eq⟩ := exists_of_transfer transferred
  obtain ⟨p, rfl, put_sum⟩ := Snapshot.total_put held_sum found
  obtain ⟨r, removed, -, -⟩ := (removed_le_of_transfer transferred).2.2 p rfl
  have added : moved.added = .finite r := by
    rw [moved_eq, FlowKind.added_eq_removed moves, ← moved_eq, removed]
  have left : (turn.leave flow (.finite p) moved).values.total = .finite (held - p + (p - r)) := by
    rw [← put_sum, leave, removed, sub_eq_add_neg p r]
    rfl
  exact Exact.add_eq_finite_iff.2 ⟨_, _, left, total_pending_leave waiting_sum added, by ring⟩

/-- Committing puts what has been held back to what stocks hold. -/
theorem total_of_foldlM_add {pending values after : Snapshot Exact}
    (committed : pending.foldlM (fun values (name, added) => do
      return values.put name ((← Snapshot.entry values name) + added)) values = .ok after)
    {t : Rat} (sum : values.total + pending.total = .finite t) : after.total = .finite t := by
  induction pending generalizing values with
  | nil =>
    rw [← Except.ok.inj committed]
    obtain ⟨p, q, held_sum, none, rfl⟩ := Exact.add_eq_finite_iff.1 sum
    rw [held_sum, ← Exact.finite.inj none, add_zero]
  | cons entry rest ih =>
    obtain ⟨name, added⟩ := entry
    obtain ⟨held, waiting, held_sum, waiting_sum, rfl⟩ := Exact.add_eq_finite_iff.1 sum
    obtain ⟨a, others, rfl, rest_sum, rfl⟩ := Exact.add_eq_finite_iff.1 waiting_sum
    rw [List.foldlM_cons] at committed
    obtain ⟨next, step, committed⟩ := bind_eq_ok_iff.1 committed
    obtain ⟨x, found, step⟩ := bind_eq_ok_iff.1 step
    obtain rfl := Except.ok.inj step
    obtain ⟨p, rfl, put_sum⟩ := Snapshot.total_put held_sum (Snapshot.entry_eq_ok_iff.1 found)
    exact ih committed (Exact.add_eq_finite_iff.2 ⟨_, others, put_sum (p + a), rest_sum, by ring⟩)

end Turn

/-! ## Rounds and runs -/

namespace Model

variable {m : Model Exact}

/-- A round among numbers gives each stock what it held, less what has been taken from it, and what
has been brought to it. -/
theorem Round.find?_of_moves {values next : Snapshot Exact} (round : m.Round values next)
    {moves : List (Flow × Transfer Exact)} (done : m.moves values = .ok moves)
    (numbers : ∀ move ∈ moves, move.2.IsFinite) {name : String} {held : Rat}
    (holds : values.find? name = some (.finite held)) :
    ∃ taken brought, Turn.drained name moves = .finite taken ∧
      Turn.filled name moves = .finite brought ∧
      next.find? name = some (.finite (held - taken + brought)) := by
  obtain ⟨taken, brought, drained_eq, filled_eq, values_eq, pending_eq⟩ :=
    Turn.settled_of_moves done numbers name
  have waits : (m.turns values).after.heldBack name = .finite (0 + brought) := pending_eq 0 rfl
  refine ⟨taken, brought, drained_eq, filled_eq, ?_⟩
  have keeps : (m.turns values).after.values.find? name = some (.finite (held - taken)) :=
    values_eq held holds
  rw [round.find?_eq_add, keeps, waits, zero_add]
  rfl

/-- A round without conversions keeps the sum of all stocks. -/
theorem Round.total_next (moves : ∀ flow ∈ m.flows, flow.rule.kind ≠ .conversion)
    {values next : Snapshot Exact} (round : m.Round values next) {t : Rat}
    (sum : values.total = .finite t) : next.total = .finite t := by
  have adds : (m.turns values).after.AddsUp t := by
    refine Turn.applyAll_induct_of_mem (motive := (Turn.AddsUp · t)) ?_ ?_
    · exact Exact.add_eq_finite_iff.2 ⟨t, 0, sum, rfl, add_zero t⟩
    · intro turn flow listed source moved adds transferred
      exact adds.leave (moves flow (List.mem_reverse.1 listed)) transferred
  exact Turn.total_of_foldlM_add round.committed adds

/-- In a round each flow moves something once, and where that is numbers, a stock that holds a
number has afterwards what it held, less what the flows out of it have taken, and what those into it
have brought. So in a run without conversions that starts with numbers the sum of all stocks stays
the same. -/
theorem run_conserves (m : Model Exact) :
    (∀ state : State Exact, state.model = m → state.advance.result = .ok () →
      ∃ moves, m.moves state.values = .ok moves ∧ moves.map Prod.fst = m.flows.reverse ∧
        ((∀ move ∈ moves, move.2.IsFinite) →
          ∀ name held, state.values.find? name = some (.finite held) →
            ∃ taken brought, Turn.drained name moves = .finite taken ∧
              Turn.filled name moves = .finite brought ∧
              state.advance.after.values.find? name =
                some (.finite (held - taken + brought)))) ∧
    ((∀ flow ∈ m.flows, flow.rule.kind ≠ .conversion) →
      ∀ rounds overrides snapshots first, m.run rounds overrides = .ok snapshots →
        snapshots.head? = some first → (∀ entry ∈ first, entry.2.IsFinite) →
          ∃ t, ∀ values ∈ snapshots, values.total = .finite t) := by
  constructor
  · rintro state rfl advanced
    obtain ⟨round, -⟩ := State.round_of_advance advanced
    obtain ⟨moves, done⟩ := round.exists_moves
    refine ⟨moves, done, Turn.flows_of_moves done, fun numbers name held holds => ?_⟩
    exact round.find?_of_moves done numbers holds
  · intro moves rounds overrides snapshots first ran begins numbers
    obtain ⟨t, sum⟩ := Snapshot.exists_total numbers
    refine ⟨t, run_induct ran (fun values next round => round.total_next moves) ?_⟩
    intro values head
    rw [← Option.some.inj (begins.symm.trans head), sum]

/-- Two flows run side by side, a third back and a fourth in a circle. -/
def circulating : Model Exact where
  stocks := [
    { name := "a", initial := .value (.whole "10") },
    { name := "b", initial := .value (.decimal "4.5") }]
  flows := [
    ⟨"a", "b", ⟨.rate, .value (.whole "3")⟩⟩,
    ⟨"b", "a", ⟨.leak, .value (.decimal "0.5")⟩⟩,
    ⟨"a", "a", ⟨.rate, .value (.whole "2")⟩⟩,
    ⟨"a", "b", ⟨.rate, .value (.decimal "1.5")⟩⟩]

theorem run_circulating : circulating.run 2 [] = .ok [
    [("a", .finite 10), ("b", .finite (9 / 2))],
    [("a", .finite (15 / 2)), ("b", .finite 7)],
    [("a", .finite 6), ("b", .finite (17 / 2))]] := by
  decide +kernel

/-- The state of that model before the first round. -/
def circulatingStart : State Exact :=
  ⟨circulating, 0, [("a", .finite 10), ("b", .finite (9 / 2))]⟩

theorem advance_circulating : circulatingStart.advance.result = .ok () ∧
    circulatingStart.advance.after.values = [("a", .finite (15 / 2)), ("b", .finite 7)] := by
  decide +kernel

theorem moves_circulating : circulating.moves circulatingStart.values = .ok [
    (⟨"a", "b", ⟨.rate, .value (.decimal "1.5")⟩⟩, ⟨.finite (3 / 2), .finite (3 / 2)⟩),
    (⟨"a", "a", ⟨.rate, .value (.whole "2")⟩⟩, ⟨.finite 2, .finite 2⟩),
    (⟨"b", "a", ⟨.leak, .value (.decimal "0.5")⟩⟩, ⟨.finite 2, .finite 2⟩),
    (⟨"a", "b", ⟨.rate, .value (.whole "3")⟩⟩, ⟨.finite 3, .finite 3⟩)] := by
  decide +kernel

theorem run_conserves_circulating :
    (∃ moves taken brought,
      circulating.moves circulatingStart.values = .ok moves ∧
      Turn.drained "a" moves = .finite taken ∧ Turn.filled "a" moves = .finite brought ∧
      Exact.finite (15 / 2) = .finite (10 - taken + brought)) ∧
    ∃ snapshots, circulating.run 2 [] = .ok snapshots ∧
      ∃ t, ∀ values ∈ snapshots, values.total = .finite t := by
  constructor
  · obtain ⟨advanced, values⟩ := advance_circulating
    obtain ⟨moves, done, -, settled⟩ :=
      (run_conserves circulating).1 circulatingStart rfl advanced
    obtain rfl := Except.ok.inj (moves_circulating.symm.trans done)
    obtain ⟨taken, brought, drained, filled, left⟩ := settled (by decide) "a" 10 rfl
    rw [values] at left
    exact ⟨_, taken, brought, done, drained, filled, Option.some.inj left⟩
  · exact ⟨_, run_circulating, (run_conserves circulating).2 (by decide) _ _ _ _ run_circulating rfl
      (by decide)⟩

end Model

end StockFlow
