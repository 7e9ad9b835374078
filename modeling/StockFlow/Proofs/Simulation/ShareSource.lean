import StockFlow.Proofs.Builder.Invariant
import StockFlow.Proofs.Formula.Infinite
import StockFlow.Proofs.Quantity.DoubleValues
import StockFlow.Proofs.Rule.SpecialTransfers
import StockFlow.Proofs.Simulation.Safety
import StockFlow.Proofs.Simulation.Turns

/-!
# Sources of shares

A flow that takes a share of its source is refused where the initial value of the source is found
infinite, whichever of the two is given first (`Builder.RefusesShares`). What is refused is a matter
of formulas without references, but what a flow drains in a run is not: an initial value that refers
to an infinite stock is infinite as well, and what fills a stock may be too large for a double.
Without either, a stock that a share is taken of stays below infinity (`Turn.Bounded.leave`), so no
share is taken of infinitely much (`Model.shares_of_bounded`).
-/

namespace StockFlow

open Quantity SpecialValues

variable {α : Type} [Quantity α] {m : Model α}

/-- Neither infinite nor no number. -/
def Quantity.isFinite (x : α) : Bool :=
  !isNaN x && !isInfinite x

/-- A sum is infinite only if one of its parts is. -/
def Quantity.SumInRange (x y : α) : Prop :=
  x + y = infinity → x = infinity ∨ y = infinity

instance [DecidableEq α] (x y : α) : Decidable (SumInRange x y) :=
  inferInstanceAs (Decidable (_ → _))

/-- In the model a share is taken of the stock. -/
def Model.Shares (m : Model α) (name : String) : Prop :=
  ∃ flow ∈ m.flows, flow.source = name ∧ flow.rule.kind.takesShare = true

instance (m : Model α) (name : String) : Decidable (m.Shares name) :=
  inferInstanceAs (Decidable (∃ _ ∈ _, _))

/-! ## Refusals -/

/-- An infinite stock and a flow that takes a share of it are not both granted: not the flow to the
stock, and not the infinite initial value to the source of the flow. -/
structure Builder.RefusesShares (b : Builder α) : Prop where
  flow : ∀ source destination start goal rule, b.resolve source = .ok start →
    b.resolve destination = .ok goal → rule.kind.takesShare = true →
    start.isInfinite α = .ok true →
      b.flow source destination rule = ⟨b, .error (.illegalSource rule.text start.text)⟩
  initial : ∀ name known wanted maximum, b.stock? name = some known → known.initial = .zero →
    { known with initial := wanted }.isInfinite α = .ok true →
    (∃ flow ∈ b.flows, flow.source = name ∧ flow.rule.kind.takesShare = true) →
      ∃ flow ∈ b.flows, flow.source = name ∧ flow.rule.kind.takesShare = true ∧
        b.stock name (some wanted) maximum =
          ⟨b, .error (.illegalSource flow.rule.text known.text)⟩

theorem Builder.SharesFinite.refusesShares {b : Builder α} (finite : b.SharesFinite) :
    b.RefusesShares where
  flow _ _ _ _ _ source_found destination_found shares infinite :=
    flow_of_infinite source_found destination_found shares infinite
  initial _ _ _ maximum found start infinite := by
    rintro ⟨flow, listed, drains, shares⟩
    exact stock_of_infinite finite found start infinite listed drains shares maximum

/-! ## Turns -/

namespace Turn

/-- The formula of a flow is a finite number when its turn comes. -/
def FiniteRate (turn : Turn α) (flow : Flow) : Prop :=
  ∀ evaluated ∈ (flow.rule.formula.evalAt turn.values).toOption, isFinite evaluated = true

/-- What a flow brings is not infinite for being too large, neither as the yield of a conversion nor
together with what is held back already. -/
def InRange (m : Model α) (turn : Turn α) (flow : Flow) : Prop :=
  ∀ t ∈ (turn.transfer m flow).toOption,
    (flow.rule.kind = .conversion → t.2.added = infinity → t.1 = infinity) ∧
      SumInRange (turn.heldBack flow.destination) t.2.added

instance (turn : Turn α) (flow : Flow) : Decidable (turn.FiniteRate flow) :=
  inferInstanceAs (Decidable (∀ _ ∈ _, _))

instance [DecidableEq α] (m : Model α) (turn : Turn α) (flow : Flow) :
    Decidable (turn.InRange m flow) :=
  inferInstanceAs (Decidable (∀ _ ∈ _, _))

end Turn

/-- The formulas of all flows are finite numbers in a round that starts from these quantities. -/
def Model.FiniteRates (m : Model α) (values : Snapshot α) : Prop :=
  ∀ p ∈ m.steps values, p.1.FiniteRate p.2

instance (m : Model α) (values : Snapshot α) : Decidable (m.FiniteRates values) :=
  inferInstanceAs (Decidable (∀ _ ∈ _, _))

/-- Nothing that fills a stock of which a share is taken is infinite for being too large, in a round
that starts from these quantities. -/
structure Model.InRange (m : Model α) (values : Snapshot α) : Prop where
  turns : ∀ p ∈ m.steps values, m.Shares p.2.destination → p.1.InRange m p.2
  sums : ∀ flow ∈ m.flows, flow.rule.kind.takesShare = true →
    ∀ x ∈ (m.turns values).after.values.find? flow.source,
      ∀ added ∈ (m.turns values).after.pending.find? flow.source, SumInRange x added

instance [DecidableEq α] (m : Model α) (values : Snapshot α) : Decidable (m.InRange values) :=
  decidable_of_iff (_ ∧ _) ⟨fun ⟨turns, sums⟩ => ⟨turns, sums⟩, fun h => ⟨h.turns, h.sums⟩⟩

/-- No stock of which a share is taken holds infinitely much because of what it refers to. -/
def Model.StartsBounded (m : Model α) (values : Snapshot α) : Prop :=
  ∀ stock ∈ m.stocks, m.Shares stock.name → stock.initial.references ≠ [] →
    values.find? stock.name ≠ some infinity

instance [DecidableEq α] (m : Model α) (values : Snapshot α) : Decidable (m.StartsBounded values) :=
  inferInstanceAs (Decidable (∀ _ ∈ _, _))

/-- In a round that starts from these quantities no share is taken of infinitely much. -/
def Model.SharesOfBounded (m : Model α) (values : Snapshot α) : Prop :=
  ∀ p ∈ m.steps values, p.2.rule.kind.takesShare = true →
    p.1.values.find? p.2.source ≠ some infinity

instance [DecidableEq α] (m : Model α) (values : Snapshot α) :
    Decidable (m.SharesOfBounded values) :=
  inferInstanceAs (Decidable (∀ _ ∈ _, _))

/-! ## What stays below infinity -/

section Bounds

variable [SpecialValues α]

theorem Quantity.bounded_of_isFinite {x : α} (finite : isFinite x = true) :
    x ≠ infinity ∧ x ≠ nan := by
  obtain ⟨number, ordinary⟩ := Bool.and_eq_true_iff.1 finite
  rw [Bool.not_eq_true'] at number ordinary
  constructor
  · rintro rfl
    rw [isInfinite, (isTop_iff _).2 rfl] at ordinary
    cases ordinary
  · rintro rfl
    rw [(isNaN_iff _).2 rfl] at number
    cases number

/-- No stock is infinite that a share is taken of. -/
def Model.Bounded (m : Model α) (values : Snapshot α) : Prop :=
  ∀ name, m.Shares name → values.find? name ≠ some infinity

namespace Turn

/-- Neither is such a stock infinite, nor what is held back for it. -/
structure Bounded (m : Model α) (turn : Turn α) : Prop where
  values : m.Bounded turn.values
  heldBack : ∀ name, m.Shares name → turn.heldBack name ≠ infinity

variable {turn : Turn α} {flow : Flow} {source : α} {moved : Transfer α}

/-- A flow brings nothing infinite to such a stock: a rate, because it is finite itself, and a share,
because its source is not infinite. -/
theorem Bounded.added_ne_infinity (bounded : turn.Bounded m) (listed : flow ∈ m.flows)
    (transferred : turn.transfer m flow = .ok (source, moved)) (finite : turn.FiniteRate flow)
    (yield : flow.rule.kind = .conversion → moved.added = infinity → source = infinity) :
    moved.added ≠ infinity := by
  obtain ⟨found, evaluated, level, room, formula, -, moved_eq⟩ := exists_room_of_transfer transferred
  have share (kind : flow.rule.kind.takesShare = true) : source ≠ infinity := by
    rintro rfl
    exact bounded.values _ ⟨flow, listed, rfl, kind⟩ found
  cases kind : flow.rule.kind with
  | rate =>
    obtain ⟨top, number⟩ := bounded_of_isFinite (finite evaluated (by rw [formula]; rfl))
    rw [moved_eq, kind]
    exact Transfer.added_rate_ne_infinity top number source room
  | conversion => exact mt (yield kind) (share (by rw [kind]; rfl))
  | leak =>
    rw [moved_eq, kind]
    exact Transfer.added_leak_ne_infinity (share (by rw [kind]; rfl)) evaluated room

theorem Bounded.leave (bounded : turn.Bounded m) (listed : flow ∈ m.flows)
    (transferred : turn.transfer m flow = .ok (source, moved)) (finite : turn.FiniteRate flow)
    (range : m.Shares flow.destination → turn.InRange m flow) :
    (turn.leave flow source moved).Bounded m := by
  constructor
  · intro name shared
    rw [find?_values_leave]
    split
    · rename_i drains
      obtain ⟨found, evaluated, level, room, -, -, rfl⟩ := exists_room_of_transfer transferred
      have top : source ≠ infinity := by
        rintro rfl
        exact bounded.values name shared (drains ▸ found)
      have nonneg := flow.rule.kind.atMost_zero_removed evaluated source level room
      exact fun same => sub_ne_infinity top nonneg (Option.some.inj same)
    · exact bounded.values name shared
  · intro name shared
    rw [heldBack_leave]
    split
    · rename_i fills
      obtain rfl := fills
      obtain ⟨yield, sum⟩ := range shared (source, moved) (by rw [transferred]; rfl)
      have added := bounded.added_ne_infinity listed transferred finite yield
      exact fun same => (sum same).elim (bounded.heldBack _ shared) added
    · exact bounded.heldBack name shared

end Turn

namespace Model

/-- All turns of a round find and leave bounded what has been bounded before. -/
theorem Bounded.turns {values : Snapshot α} (bounded : m.Bounded values)
    (finite : m.FiniteRates values) (range : m.InRange values) :
    (∀ p ∈ m.steps values, p.1.Bounded m) ∧ (m.turns values).after.Bounded m := by
  have start : (Turn.mk values []).Bounded m := ⟨bounded, fun _ _ => zero_ne_infinity⟩
  refine Turn.steps_induct (motive := fun turn => turn.Bounded m) start ?_
  intro p listed source moved bounded transferred
  exact bounded.leave (flow_mem_of_mem_steps listed) transferred (finite p listed)
    (range.turns p listed)

variable {state : State α}

/-- And so does the round, be it done or not. -/
theorem Bounded.advance (same : state.model = m) (bounded : m.Bounded state.values)
    (finite : m.FiniteRates state.values) (range : m.InRange state.values) :
    m.Bounded state.advance.after.values := by
  subst same
  obtain ⟨-, after⟩ := bounded.turns finite range
  cases done : state.advance.result with
  | error fault =>
    rw [State.values_of_advance_error done]
    exact after.values
  | ok _ =>
    obtain ⟨round, -⟩ := State.round_of_advance done
    intro name shared
    have drained := after.values name shared
    have heldBack := after.heldBack name shared
    rw [round.find?_next]
    cases waiting : (state.model.turns state.values).after.pending.find? name with
    | none => exact drained
    | some added =>
      rw [Turn.heldBack, waiting, Option.getD_some] at heldBack
      obtain ⟨flow, listed, rfl, kind⟩ := shared
      cases left : (state.model.turns state.values).after.values.find? flow.source with
      | none =>
        intro same
        cases same
      | some x =>
        rw [left] at drained
        intro same
        rcases range.sums flow listed kind x left added waiting (Option.some.inj same) with top | top
        · exact drained (congrArg some top)
        · exact heldBack top

/-- A stock that a share is taken of is not found infinite when the flow is declared, so it can
start infinite only by what it refers to. -/
theorem Built.bounded_start (built : m.Built) (simulated : m.simulate [] = .ok state)
    (start : m.StartsBounded state.values) : m.Bounded state.values := by
  intro name shared holds
  obtain ⟨_, _, started⟩ := bind_eq_ok_iff.1 simulated
  obtain ⟨flow, listed, rfl, kind⟩ := shared
  obtain ⟨stock, found⟩ := exists_stock? (built.ends_declared flow listed).1
  have known := List.mem_of_find?_eq_some found
  have named := Model.stock?_name found
  by_cases alone : stock.initial.references = []
  · have finite := built.finite_of_takesShare listed kind found
    have computed := (start_solution built started).1.computed stock known rfl
    rw [named, Snapshot.entry_eq_ok_iff.2 holds] at computed
    have infinite : stock.isInfinite α = .ok true := by
      refine Stock.isInfinite_eq_ok_true_iff.2 ⟨alone, ?_⟩
      rw [computed]
      exact Formula.evalAt_of_references_nil alone ..
    rw [infinite] at finite
    cases finite
  · exact start stock known ⟨flow, listed, named.symm, kind⟩ alone (named ▸ holds)

/-- A flow that takes a share is refused for an infinite source, and an infinite initial value for
the source of one. So as long as rates are finite, no stock that a share is taken of starts infinite
by what it refers to, and nothing that fills one is infinite for being too large, no share is taken
of infinitely much. -/
theorem shares_of_bounded (built : m.Built) (simulated : m.simulate [] = .ok state)
    (start : m.StartsBounded state.values) {n : Nat}
    (finite : ∀ k ≤ n, m.FiniteRates (state.afterRounds k).values)
    (range : ∀ k ≤ n, m.InRange (state.afterRounds k).values) :
    (∀ name calls, (Builder.callAll ({ name } : Builder α) calls).RefusesShares) ∧
      ∀ k ≤ n, m.SharesOfBounded (state.afterRounds k).values := by
  refine ⟨fun name calls => (Builder.sharesFinite_callAll name calls).refusesShares, ?_⟩
  obtain ⟨_, _, started⟩ := bind_eq_ok_iff.1 simulated
  obtain ⟨_, _, _, same_model, _⟩ := State.exists_order_of_start started
  have bounded : ∀ k ≤ n, m.Bounded (state.afterRounds k).values := by
    intro k le
    induction k with
    | zero => exact built.bounded_start simulated start
    | succ k ih =>
      have same := (state.afterRounds_kept k).1.trans same_model
      have earlier : k ≤ n := Nat.le_of_succ_le le
      exact (ih earlier).advance same (finite k earlier) (range k earlier)
  intro k le p listed kind
  have turn := ((bounded k le).turns (finite k le) (range k le)).1 p listed
  exact turn.values _ ⟨p.2, flow_mem_of_mem_steps listed, rfl, kind⟩

end Model

end Bounds

namespace Model

/-- A stock that is filled from a spring leaks, and starts from what it refers to. -/
def leaking : Model Float :=
  (Builder.callAll {} [
    .infiniteStock "A",
    .stock "B" (some (.thenValue (.value (.reference "C")) .times (.whole "2"))) none,
    .stock "C" (some (.value (.whole "10"))) none,
    .stock "D" none none,
    .flow (.declared "A") (.declared "B") ⟨.rate, .value (.whole "5")⟩,
    .flow (.declared "B") (.declared "C") ⟨.leak, .value (.decimal "0.5")⟩,
    .flow (.declared "C") (.declared "D") ⟨.conversion, .value (.whole "3")⟩]).build

/-- The state of that model before the first round. -/
def leakingStart : State Float :=
  ⟨leaking, 0, [("A", infinity), ("C", 10.0), ("D", 0.0), ("B", 20.0)]⟩

theorem simulate_leaking : leaking.simulate [] = .ok leakingStart := by
  decide +kernel

theorem shares_of_bounded_leaking :
    leaking.Shares "B" ∧ leaking.Shares "C" ∧
      ∀ k ≤ 2, leaking.SharesOfBounded (leakingStart.afterRounds k).values := by
  refine ⟨by decide +kernel, by decide +kernel, ?_⟩
  have start : leaking.StartsBounded leakingStart.values := by decide +kernel
  have finite : ∀ k ≤ 2, leaking.FiniteRates (leakingStart.afterRounds k).values := by
    decide +kernel
  have range : ∀ k ≤ 2, leaking.InRange (leakingStart.afterRounds k).values := by
    decide +kernel
  exact (shares_of_bounded (.ofCalls "" _) simulate_leaking start finite range).2

/-- Formulas that refer to no stock are finite at all moments if they are at one. -/
theorem finiteRates_of_references_nil
    (fixed : ∀ flow ∈ m.flows, flow.rule.formula.references = [] ∧
      ∀ evaluated ∈ (flow.rule.formula.evalAt ([] : Snapshot α)).toOption, isFinite evaluated = true)
    (values : Snapshot α) : m.FiniteRates values := by
  intro p listed
  obtain ⟨alone, finite⟩ := fixed p.2 (flow_mem_of_mem_steps listed)
  rw [Turn.FiniteRate, Formula.evalAt_of_references_nil alone p.1.values []]
  exact finite

/-- A stock that starts with what an infinite one holds leaks. -/
def mirroring : Model Float :=
  (Builder.callAll {} [
    .infiniteStock "A",
    .stock "B" (some (.value (.reference "A"))) none,
    .stock "C" none none,
    .flow (.declared "B") (.declared "C") ⟨.leak, .value (.decimal "0.5")⟩]).build

theorem simulate_mirroring :
    mirroring.simulate [] = .ok ⟨mirroring, 0, [("A", infinity), ("C", 0.0), ("B", infinity)]⟩ := by
  decide +kernel

/-- A number so large that its fourth power is too large for a double. -/
def huge : Spec.Value :=
  .whole "100000000000000000000000000000000000000000000000000000000000000000000000000000000"

/-- A conversion of a large stock by a large factor fills a stock that leaks. -/
def bursting : Model Float :=
  (Builder.callAll {} [
    .stock "A" (some (.thenValue (.value huge) .times huge)) none,
    .stock "B" none none,
    .stock "C" none none,
    .flow (.declared "A") (.declared "B") ⟨.conversion, .thenValue (.value huge) .times huge⟩,
    .flow (.declared "B") (.declared "C") ⟨.leak, .value (.decimal "0.5")⟩]).build

theorem exists_simulate_bursting :
    ∃ state, bursting.simulate [] = .ok state ∧ bursting.StartsBounded state.values ∧
      ¬ bursting.SharesOfBounded (state.afterRounds 1).values := by
  refine ⟨⟨bursting, 0, [("A", 1e160), ("B", 0.0), ("C", 0.0)]⟩, ?_⟩
  decide +kernel

/-- Finite rates are not enough. A share may be taken of infinitely much where a stock refers to an
infinite one, even if nothing gets too large, and where something gets too large, even if no stock
that a share is taken of starts infinite. -/
theorem not_shares_of_bounded :
    (¬ ∀ (m : Model Float) state n, m.Built → m.simulate [] = .ok state →
      (∀ values, m.FiniteRates values) → (∀ k ≤ n, m.InRange (state.afterRounds k).values) →
        ∀ k ≤ n, m.SharesOfBounded (state.afterRounds k).values) ∧
    ¬ ∀ (m : Model Float) state n, m.Built → m.simulate [] = .ok state →
      (∀ values, m.FiniteRates values) → m.StartsBounded state.values →
        ∀ k ≤ n, m.SharesOfBounded (state.afterRounds k).values := by
  constructor
  · intro always
    have finite : ∀ values, mirroring.FiniteRates values :=
      finiteRates_of_references_nil (by decide +kernel)
    have range := always mirroring _ 0 (.ofCalls "" _) simulate_mirroring finite (by decide +kernel)
    exact absurd (range 0 le_rfl) (by decide +kernel)
  · intro always
    have finite : ∀ values, bursting.FiniteRates values :=
      finiteRates_of_references_nil (by decide +kernel)
    obtain ⟨state, simulated, start, exceeds⟩ := exists_simulate_bursting
    exact exceeds (always bursting state 1 (.ofCalls "" _) simulated finite start 1 le_rfl)

end Model

end StockFlow
