import StockFlow.Proofs.Builder.Infinite
import StockFlow.Proofs.Rule.SpecialTransfers
import StockFlow.Proofs.Simulation.Runs
import StockFlow.Proofs.Simulation.Turns

/-!
# Infinite stocks in a run

A stock that has been declared infinite starts infinite, and all flows from it are rates. It stays
infinite, whatever flows drain or fill it, until a flow from it finds neither a rate that is a bound
nor a bounded room, and takes infinitely much (`Turn.Unlimited`); then it is no number, for good
(`Model.run_infinite`).
-/

namespace StockFlow

open Quantity SpecialValues

variable {α : Type} [Quantity α] [SpecialValues α] {m : Model α} {name : String}

namespace Turn

variable {turn : Turn α} {flow : Flow} {source : α} {moved : Transfer α}

/-- Neither the formula of a flow nor the room at its destination sets a bound to it. -/
structure Unlimited (m : Model α) (turn : Turn α) (flow : Flow) : Prop where
  rate : flow.rule.formula.evalAt turn.values = .ok infinity ∨
    flow.rule.formula.evalAt turn.values = .ok nan
  room : turn.room m flow = .ok infinity

/-- A rate takes infinitely much of an infinite source just if it is unlimited. -/
theorem removed_eq_infinity_iff (transferred : turn.transfer m flow = .ok (infinity, moved))
    (rate : flow.rule.kind = .rate) : moved.removed = infinity ↔ turn.Unlimited m flow := by
  obtain ⟨-, evaluated, level, room, formula, has_room, rfl⟩ := exists_room_of_transfer transferred
  rw [rate]
  refine Transfer.removed_rate_eq_infinity_iff.trans ?_
  constructor
  · rintro ⟨rfl, same | same⟩
    · exact ⟨.inl (same ▸ formula), has_room⟩
    · exact ⟨.inr (same ▸ formula), has_room⟩
  · rintro ⟨same | same, all⟩
    · exact ⟨Except.ok.inj (has_room.symm.trans all), .inl (Except.ok.inj (formula.symm.trans same))⟩
    · exact ⟨Except.ok.inj (has_room.symm.trans all), .inr (Except.ok.inj (formula.symm.trans same))⟩

/-- A flow takes infinitely much of a stock. -/
def Exhausts (m : Model α) (turn : Turn α) (flow : Flow) (name : String) : Prop :=
  flow.source = name ∧ turn.Unlimited m flow

/-- What no number is held of stays so. -/
theorem find?_leave_of_nan (holds : turn.values.find? name = some nan)
    (transferred : turn.transfer m flow = .ok (source, moved)) :
    (turn.leave flow source moved).values.find? name = some nan := by
  rw [find?_values_leave]
  split
  · rename_i drains
    obtain rfl := Option.some.inj ((exists_of_transfer transferred).1.symm.trans (drains ▸ holds))
    exact congrArg some (apply_nan .minus moved.removed).1
  · exact holds

/-- Of an infinite stock a rate leaves infinitely much, or what is no number if it takes as much. -/
theorem find?_leave_of_infinity (holds : turn.values.find? name = some infinity)
    (rate : flow.source = name → flow.rule.kind = .rate)
    (transferred : turn.transfer m flow = .ok (source, moved)) :
    (turn.Exhausts m flow name → (turn.leave flow source moved).values.find? name = some nan) ∧
      (¬ turn.Exhausts m flow name →
        (turn.leave flow source moved).values.find? name = some infinity) := by
  rw [find?_values_leave]
  by_cases drains : flow.source = name
  · obtain ⟨found, evaluated, level, room, -, -, moved_eq⟩ := exists_room_of_transfer transferred
    obtain rfl := Option.some.inj (found.symm.trans (drains ▸ holds))
    have takes := removed_eq_infinity_iff transferred (rate drains)
    have number : moved.removed ≠ nan := by
      rw [moved_eq]
      exact ne_nan_of_nonneg (flow.rule.kind.atMost_zero_removed ..)
    rw [if_pos drains]
    constructor
    · rintro ⟨-, unlimited⟩
      rw [takes.2 unlimited, infinity_sub_infinity]
    · intro bounded
      rw [infinity_sub (fun all => bounded ⟨drains, takes.1 all⟩) number]
  · rw [if_neg drains]
    exact ⟨fun exhausts => absurd exhausts.1 drains, fun _ => holds⟩

/-! ## All turns of a round -/

variable {flows : List Flow}

theorem find?_applyAll_of_nan (holds : turn.values.find? name = some nan) (flows : List Flow) :
    (turn.applyAll m flows).after.values.find? name = some nan :=
  applyAll_induct (motive := fun turn => turn.values.find? name = some nan) holds
    (fun _ _ _ _ => find?_leave_of_nan) flows

/-- An infinite stock stays infinite as long as no flow takes infinitely much of it. -/
theorem find?_applyAll_of_bounded (holds : turn.values.find? name = some infinity)
    (rates : ∀ flow ∈ flows, flow.source = name → flow.rule.kind = .rate)
    (bounded : ∀ p ∈ turn.steps m flows, ¬ p.1.Exhausts m p.2 name) :
    (turn.applyAll m flows).after.values.find? name = some infinity := by
  refine (steps_induct (motive := fun turn => turn.values.find? name = some infinity) holds ?_).2
  intro p listed source moved holds transferred
  have rate := rates p.2 (flow_mem_of_mem_steps listed)
  exact (find?_leave_of_infinity holds rate transferred).2 (bounded p listed)

/-- One flow that takes infinitely much of it leaves no number, whatever comes behind. -/
theorem find?_applyAll_of_exhausts (holds : turn.values.find? name = some infinity)
    (rates : ∀ flow ∈ flows, flow.source = name → flow.rule.kind = .rate)
    (done : (turn.applyAll m flows).result = .ok ())
    (exhausts : ∃ p ∈ turn.steps m flows, p.1.Exhausts m p.2 name) :
    (turn.applyAll m flows).after.values.find? name = some nan := by
  induction flows generalizing turn with
  | nil =>
    obtain ⟨p, listed, -⟩ := exhausts
    cases listed
  | cons flow rest ih =>
    obtain ⟨rate, rest_rates⟩ := List.forall_mem_cons.1 rates
    cases applied : turn.apply m flow with
    | error fault =>
      rw [applyAll, applied] at done
      cases done
    | ok next =>
      obtain ⟨source, moved, transferred, rfl⟩ := exists_of_apply applied
      obtain ⟨lost, kept⟩ := find?_leave_of_infinity holds rate transferred
      rw [applyAll, applied] at done ⊢
      rw [steps_of_transfer transferred] at exhausts
      by_cases first : turn.Exhausts m flow name
      · exact find?_applyAll_of_nan (lost first) rest
      · refine ih (kept first) rest_rates done ?_
        obtain ⟨p, listed, later⟩ := exhausts
        rcases List.mem_cons.1 listed with rfl | listed
        · exact absurd later first
        · exact ⟨p, listed, later⟩

/-- What is held back for a stock is zero or more. -/
theorem nonneg_heldBack_applyAll (values : Snapshot α) (flows : List Flow) (name : String) :
    atMost zero ((applyAll m ⟨values, []⟩ flows).after.heldBack name) = true := by
  refine applyAll_induct (motive := fun turn => atMost zero (turn.heldBack name) = true)
    atMost_zero_zero ?_ flows
  intro turn flow source moved nonneg transferred
  obtain ⟨-, evaluated, level, room, -, -, rfl⟩ := exists_room_of_transfer transferred
  rw [heldBack_leave]
  split
  · exact add_nonneg nonneg (flow.rule.kind.atMost_zero_added ..)
  · exact nonneg

end Turn

/-! ## Rounds and runs -/

namespace Model

/-- In a round from these quantities a flow takes infinitely much of a stock. -/
def Exhausts (m : Model α) (values : Snapshot α) (name : String) : Prop :=
  ∃ p ∈ m.steps values, p.1.Exhausts m p.2 name

/-- All flows from a stock are rates. -/
def OnlyRates (m : Model α) (name : String) : Prop :=
  ∀ flow ∈ m.flows, flow.source = name → flow.rule.kind = .rate

/-- What is committed at the end of a round changes nothing of what is infinite or no number. -/
theorem Round.find?_of_special {values next : Snapshot α} (round : m.Round values next) {x : α}
    (special : x = infinity ∨ x = nan)
    (holds : (m.turns values).after.values.find? name = some x) : next.find? name = some x := by
  rw [round.find?_next, holds]
  cases waiting : (m.turns values).after.pending.find? name with
  | none => rfl
  | some added =>
    have nonneg := Turn.nonneg_heldBack_applyAll (m := m) values m.flows.reverse name
    have held_back : (m.turns values).after.heldBack name = added := by
      rw [Turn.heldBack, waiting, Option.getD_some]
    change atMost zero ((m.turns values).after.heldBack name) = true at nonneg
    rw [held_back] at nonneg
    rcases special with rfl | rfl
    · exact congrArg some (infinity_add nonneg)
    · exact congrArg some (apply_nan .plus added).1

theorem Round.find?_of_nan {values next : Snapshot α} (round : m.Round values next)
    (holds : values.find? name = some nan) : next.find? name = some nan :=
  round.find?_of_special (.inr rfl) (Turn.find?_applyAll_of_nan (m := m) holds _)

/-- A round leaves an infinite stock as it is, or without a number if one of the flows takes
infinitely much of it. -/
theorem Round.find?_of_infinity {values next : Snapshot α} (round : m.Round values next)
    (rates : m.OnlyRates name) (holds : values.find? name = some infinity) :
    (m.Exhausts values name → next.find? name = some nan) ∧
      (¬ m.Exhausts values name → next.find? name = some infinity) := by
  have turns_rates : ∀ flow ∈ m.flows.reverse, flow.source = name → flow.rule.kind = .rate :=
    fun flow listed => rates flow (List.mem_reverse.1 listed)
  constructor
  · intro exhausts
    exact round.find?_of_special (.inr rfl)
      (Turn.find?_applyAll_of_exhausts holds turns_rates round.done exhausts)
  · intro bounded
    refine round.find?_of_special (.inl rfl) ?_
    exact Turn.find?_applyAll_of_bounded holds turns_rates fun p listed exhausts =>
      bounded ⟨p, listed, exhausts⟩

/-- Along rounds an infinite stock stays infinite just if none of them exhausts it. -/
theorem find?_of_isChain {first : Snapshot α} {later : List (Snapshot α)}
    (chain : (first :: later).IsChain m.Round) (rates : m.OnlyRates name)
    (holds : first.find? name = some infinity) :
    (∀ values ∈ first :: later, values.find? name = some infinity) ↔
      ∀ values ∈ (first :: later).dropLast, ¬ m.Exhausts values name := by
  induction later generalizing first with
  | nil => simp [holds]
  | cons next rest ih =>
    obtain ⟨round, chain⟩ := List.isChain_cons_cons.1 chain
    obtain ⟨lost, kept⟩ := round.find?_of_infinity rates holds
    rw [List.dropLast_cons_cons]
    by_cases exhausts : m.Exhausts first name
    · have differs : next.find? name ≠ some infinity := by
        rw [lost exhausts]
        exact fun same => infinity_ne_nan (Option.some.inj same).symm
      constructor
      · intro all
        exact absurd (all next (by simp)) differs
      · intro none
        exact absurd exhausts (none first (List.mem_cons_self ..))
    · have later := ih chain (kept exhausts)
      constructor
      · intro all
        exact List.forall_mem_cons.2 ⟨exhausts,
          later.1 fun values listed => all values (List.mem_cons_of_mem _ listed)⟩
      · intro none
        exact List.forall_mem_cons.2 ⟨holds,
          later.2 fun values listed => none values (List.mem_cons_of_mem _ listed)⟩

omit [SpecialValues α] in
/-- All flows from an infinite stock are rates, for the others have been refused. -/
theorem Built.onlyRates (built : m.Built) {stock : Stock} (found : m.stock? name = some stock)
    (infinite : stock.isInfinite α = .ok true) : m.OnlyRates name := by
  rintro flow listed rfl
  cases kind : flow.rule.kind with
  | rate => rfl
  | conversion | leak =>
    have finite := built.finite_of_takesShare listed (by rw [kind]; rfl) found
    rw [infinite] at finite
    cases finite

/-- An infinite stock starts infinite, unless it is overridden. -/
theorem Built.find?_start (built : m.Built) {overrides : Overrides α} {state : State α}
    (started : State.start m overrides = .ok state) {stock : Stock}
    (found : m.stock? name = some stock) (infinite : stock.isInfinite α = .ok true)
    (own : overrides.find? name = none) : state.values.find? name = some infinity := by
  obtain rfl := Model.stock?_name found
  have computed := (start_solution built started).1.computed stock
    (List.mem_of_find?_eq_some found) own
  rw [Stock.evalAt_of_isInfinite infinite] at computed
  exact Snapshot.entry_eq_ok_iff.1 computed

variable {rounds : Nat} {overrides : Overrides α} {snapshots : List (Snapshot α)}

/-- A run holds infinitely much of a stock that has been declared infinite and has not been
overridden, or what is no number; and it holds infinitely much all along just if no round that
another follows exhausts the stock. -/
theorem run_infinite (declares : m.DeclaresInfinite name) (own : overrides.find? name = none)
    (ran : m.run rounds overrides = .ok snapshots) :
    (∀ values ∈ snapshots, values.find? name = some infinity ∨ values.find? name = some nan) ∧
      ((∀ values ∈ snapshots, values.find? name = some infinity) ↔
        ∀ values ∈ snapshots.dropLast, ¬ m.Exhausts values name) := by
  have built := declares.built
  obtain ⟨stock, found, infinite⟩ := declares.exists_stock
  have rates := built.onlyRates found infinite
  obtain ⟨state, later, started, rfl, chain⟩ := exists_start_of_run ran
  have holds := built.find?_start started found infinite own
  refine ⟨?_, find?_of_isChain chain rates holds⟩
  refine chain.induction (fun values => values.find? name = some infinity ∨
    values.find? name = some nan) _ (fun {values next} round special => ?_) fun _ => .inl holds
  rcases special with inf | none
  · obtain ⟨lost, kept⟩ := round.find?_of_infinity rates inf
    by_cases exhausts : m.Exhausts values name
    · exact .inr (lost exhausts)
    · exact .inl (kept exhausts)
  · exact .inr (round.find?_of_nan none)

/-- A spring that fills two stocks, one by five a round and the other up to its maximum. -/
def springText : String :=
  "[A] > B @ 5\n[A] > C(0, 10) @ inf"

/-- The model of that spec. -/
def spring : Model Float where
  stocks := [
    .infinite "A",
    { name := "B" },
    { name := "C", initial := .value (.whole "0"), maximum := .value (.whole "10") }]
  flows := [⟨"A", "B", .rate, .value (.whole "5")⟩, ⟨"A", "C", .rate, .unbounded⟩]

/-- The first line of that spec. -/
def springLine : Spec.Line where
  number := 1
  pieces := [
    .stock (.infinite "A"), .direction, .stock (.finite "B" []), .delimiter,
    .flow ⟨"", [.value (.whole "5") .nil]⟩]
  text := "[A] > B @ 5"

theorem declaresInfinite_spring : spring.DeclaresInfinite "A" := by
  have read : Model.ofText "" springText = .ok spring := by decide +kernel
  have first : ((Spec.scan springText).toOption.getD []).head? = some springLine := by
    decide +kernel
  obtain ⟨lines, scanned, -⟩ := bind_eq_ok_iff.1 read
  rw [scanned] at first
  exact .ofText read scanned (List.mem_of_head? first) (List.mem_cons_self ..)

theorem run_spring : spring.run 2 [] = .ok [
    [("A", infinity), ("B", 0.0), ("C", 0.0)],
    [("A", infinity), ("B", 5.0), ("C", 10.0)],
    [("A", infinity), ("B", 10.0), ("C", 10.0)]] := by
  decide +kernel

theorem run_infinite_spring :
    ∃ snapshots, spring.run 2 [] = .ok snapshots ∧
      ∀ values ∈ snapshots.dropLast, ¬ spring.Exhausts values "A" := by
  refine ⟨_, run_spring, ?_⟩
  obtain ⟨-, infinite⟩ := run_infinite declaresInfinite_spring rfl run_spring
  exact infinite.1 (by decide)

/-- A spring without bound into a stock without one. -/
def flood : List Builder.Call := [
  .infiniteStock "A",
  .stock "B" none none,
  .flow (.declared "A") (.declared "B") ⟨.rate, .unbounded⟩]

theorem run_flood : (Builder.callAll ({} : Builder Float) flood).build.run 1 [] = .ok [
    [("A", infinity), ("B", 0.0)], [("A", nan), ("B", infinity)]] := by
  decide +kernel

/-- A stock that has been declared infinite does not always stay so. -/
theorem not_run_infinite :
    ¬ ∀ (m : Model Float) name rounds overrides snapshots, m.DeclaresInfinite name →
      overrides.find? name = none → m.run rounds overrides = .ok snapshots →
        ∀ values ∈ snapshots, values.find? name = some infinity := by
  intro always
  have declares : (Builder.callAll ({} : Builder Float) flood).build.DeclaresInfinite "A" :=
    .ofCalls "" [] _ rfl
  have last := always _ "A" 1 [] _ declares rfl run_flood [("A", nan), ("B", infinity)] (by simp)
  exact absurd last (by decide +kernel)

end Model

end StockFlow
