import StockFlow.Proofs.Simulation.Footprint
import StockFlow.Proofs.Simulation.Runs

/-!
# The order of unrelated flows

In general it matters which flow has its turn first: a flow sees what those before it have left of
its source, and what they hold back for its destination. Two flows with different destinations of
which neither reads the source of the other (`Model.Unrelated`) can follow each other in either
order. If they are neighbours among the flows of a model, exchanging them changes no run
(`Model.run_exchange`).
-/

namespace StockFlow

open StockFlow.Reference

variable {α : Type}

namespace Model

/-- A model with the same stocks and other flows. -/
def withFlows (m : Model α) (flows : List Flow) : Model α :=
  { m with flows }

/-- Two flows fill different stocks, and none of them reads what the other one drains. -/
structure Unrelated (m : Model α) (f g : Flow) : Prop where
  apart : f.destination ≠ g.destination
  unread : f.source ∉ m.reads g
  unread_other : g.source ∉ m.reads f

theorem Unrelated.symm {m : Model α} {f g : Flow} (unrelated : m.Unrelated f g) :
    m.Unrelated g f :=
  ⟨unrelated.apart.symm, unrelated.unread_other, unrelated.unread⟩

theorem Unrelated.source_ne {m : Model α} {f g : Flow} (unrelated : m.Unrelated f g) :
    f.source ≠ g.source := by
  intro same
  apply unrelated.unread
  rw [same]
  exact List.mem_cons_self ..

end Model

variable {m m' : Model α} {flows : List Flow} {order : List String}

theorem Model.stock?_congr (stocks : m.stocks = m'.stocks) (name : String) :
    m.stock? name = m'.stock? name := by
  rw [stock?, stock?, stocks]

/-! ## Validation does not look at the order of flows -/

/-- Links of other kinds than initial leave the references as they are. -/
theorem Reference.references_append_of_kind_ne {nodes : List String} {links others : List Link}
    (kinds : ∀ link ∈ others, link.kind ≠ .initial) :
    references nodes (links ++ others) = references nodes links := by
  unfold references
  rw [List.foldl_append]
  generalize links.foldl References.add _ = r
  induction others with
  | nil => rfl
  | cons link rest ih =>
    obtain ⟨first, rest_kinds⟩ := List.forall_mem_cons.1 kinds
    rw [List.foldl_cons, References.add, if_neg first]
    exact ih rest_kinds

namespace Model

/-- Only the stocks have references that matter for the initialization. -/
theorem references_withFlows (m : Model α) (flows : List Flow) :
    (m.withFlows flows).references = m.references := by
  have kinds : ∀ flows : List Flow, ∀ link ∈ flows.flatMap fun flow =>
      linksOf .rate flow.destination flow.rule.formula, link.kind ≠ .initial := by
    intro flows link listed
    obtain ⟨flow, -, made⟩ := List.mem_flatMap.1 listed
    obtain ⟨name, -, rfl⟩ := List.mem_map.1 made
    simp
  unfold references links
  rw [references_append_of_kind_ne (kinds _), references_append_of_kind_ne (kinds _)]
  rfl

theorem order_withFlows (same : flows.Perm m.flows) (valid : m.order = .ok order) :
    (m.withFlows flows).order = .ok order := by
  obtain ⟨closed, acyclic, made⟩ := order_eq_ok_iff.1 valid
  rw [order_eq_ok_iff, references_withFlows]
  refine ⟨⟨closed.initial, closed.maximum, fun flow listed => ?_⟩, acyclic, made⟩
  exact closed.rate flow (same.subset listed)

end Model

variable [Quantity α]

theorem State.start_withFlows {overrides : Overrides α} {first : Snapshot α}
    (same : flows.Perm m.flows) (started : State.start m overrides = .ok ⟨m, 0, first⟩) :
    State.start (m.withFlows flows) overrides = .ok ⟨m.withFlows flows, 0, first⟩ := by
  obtain ⟨known, order, _, valid, filled, ⟨⟩⟩ := State.start_eq_ok_iff.1 started
  exact State.start_eq_ok_iff.2
    ⟨known, order, first, Model.order_withFlows same valid, filled, rfl⟩

/-! ## Two turns in either order -/

namespace Turn.AgreeOn

variable {turn turn' last : Turn α} {f g : Flow}

/-- What two flows leave that drain different stocks and fill different ones does not depend on
which of them comes first. -/
theorem leave_leave (agree : AgreeOn (fun _ => true) turn turn') (sources : f.source ≠ g.source)
    (destinations : f.destination ≠ g.destination) (x y : α) (moved moved' : Transfer α) :
    AgreeOn (fun _ => true) ((turn.leave f x moved).leave g y moved')
      ((turn'.leave g y moved').leave f x moved) := by
  constructor
  · intro name _
    simp only [find?_values_leave, agree.values name rfl]
    by_cases left : f.source = name
    · rw [if_pos left, if_pos left, if_neg (left ▸ sources.symm)]
    · rw [if_neg left, if_neg left]
  · intro name _
    simp only [find?_pending_leave, heldBack_leave, agree.pending name rfl]
    rw [if_neg destinations, if_neg destinations.symm, agree.heldBack rfl, agree.heldBack rfl]
    by_cases left : f.destination = name
    · rw [if_pos left, if_pos left, if_neg (left ▸ destinations.symm)]
    · rw [if_neg left, if_neg left]

/-- Models of the same stocks do the same in the turns of the same flows. -/
theorem exists_applyAll (stocks : m.stocks = m'.stocks)
    (agree : AgreeOn (fun _ => true) turn turn') (done : turn.applyAll m flows = ⟨last, .ok ()⟩) :
    ∃ last', turn'.applyAll m' flows = ⟨last', .ok ()⟩ ∧
      AgreeOn (fun _ => true) last last' := by
  have inner : ∀ flow ∈ flows, true → m.stock? flow.destination = m'.stock? flow.destination ∧
      ∀ name ∈ m.reads flow, true :=
    fun flow _ _ => ⟨Model.stock?_congr stocks flow.destination, fun _ _ => rfl⟩
  have all := agree.exists_applyAll_filter (fun _ => true) inner
    (fun _ _ dropped => absurd rfl dropped) done
  rwa [List.filter_true] at all

/-- Two unrelated flows can have their turns in either order, whatever follows. -/
theorem exists_applyAll_exchange (stocks : m.stocks = m'.stocks) (unrelated : m.Unrelated f g)
    (agree : AgreeOn (fun _ => true) turn turn')
    (done : turn.applyAll m (f :: g :: flows) = ⟨last, .ok ()⟩) :
    ∃ last', turn'.applyAll m' (g :: f :: flows) = ⟨last', .ok ()⟩ ∧
      AgreeOn (fun _ => true) last last' := by
  obtain ⟨x, moved, first, done⟩ := applyAll_cons_eq_ok_iff.1 done
  obtain ⟨y, moved', second, done⟩ := applyAll_cons_eq_ok_iff.1 done
  rw [transfer_leave unrelated.unread unrelated.apart] at second
  have known := Model.stock?_congr stocks
  have second' : turn'.transfer m' g = .ok (y, moved') := by
    rw [← second, agree.transfer (known _) fun _ _ => rfl]
  have first' : (turn'.leave g y moved').transfer m' f = .ok (x, moved) := by
    have unread : g.source ∉ m'.reads f := by
      rw [Model.reads, ← known]
      exact unrelated.unread_other
    rw [transfer_leave unread unrelated.apart.symm, ← first, agree.transfer (known _) fun _ _ => rfl]
  obtain ⟨last', done', agree'⟩ :=
    (agree.leave_leave unrelated.source_ne unrelated.apart x y moved moved').exists_applyAll stocks
      done
  refine ⟨last', applyAll_cons_eq_ok_iff.2 ⟨y, moved', second', ?_⟩, agree'⟩
  exact applyAll_cons_eq_ok_iff.2 ⟨x, moved, first', done'⟩

end Turn.AgreeOn

/-! ## Rounds and runs -/

namespace Model

variable {f g : Flow} {before after : List Flow}

theorem Round.exchange {values next : Snapshot α} (flows : m.flows = before ++ f :: g :: after)
    (unrelated : m.Unrelated f g) (distinct : values.names.Nodup) (round : m.Round values next) :
    (m.withFlows (before ++ g :: f :: after)).Round values next := by
  let exchanged := m.withFlows (before ++ g :: f :: after)
  have stocks : m.stocks = exchanged.stocks := rfl
  have turns : m.flows.reverse = after.reverse ++ g :: f :: before.reverse := by simp [flows]
  have turns' : exchanged.flows.reverse = after.reverse ++ f :: g :: before.reverse := by
    simp [exchanged, withFlows]
  obtain ⟨last, done, committed⟩ := round_iff.1 round
  -- the flows declared last have their turns first, then the two, then those declared before them
  rw [turns] at done
  obtain ⟨middle, done_after, done_rest⟩ := Turn.applyAll_append_eq_ok_iff.1 done
  have start : Turn.AgreeOn (fun _ => true) (⟨values, []⟩ : Turn α) ⟨values, []⟩ :=
    ⟨fun _ _ => rfl, fun _ _ => rfl⟩
  obtain ⟨middle', done_after', agree⟩ := start.exists_applyAll stocks done_after
  obtain ⟨last', done_rest', agree⟩ :=
    agree.exists_applyAll_exchange stocks unrelated.symm done_rest
  have done' : Turn.applyAll exchanged ⟨values, []⟩ exchanged.flows.reverse = ⟨last', .ok ()⟩ := by
    rw [turns']
    exact Turn.applyAll_append_eq_ok_iff.2 ⟨middle', done_after', done_rest'⟩
  obtain ⟨next', committed', same⟩ := agree.exists_commit done done' committed
  have round' : exchanged.Round values next' := round_iff.2 ⟨last', done', committed'⟩
  have names : next.names = next'.names := by rw [round.names_next, round'.names_next]
  rw [Keyed.eq_of_find?_eq (round.names_next ▸ distinct) names fun name => same name rfl]
  exact round'

/-- All runs of a model are runs of the model with the two flows exchanged. -/
theorem run_of_exchange {rounds : Nat} {overrides : Overrides α} {snapshots : List (Snapshot α)}
    (flows : m.flows = before ++ f :: g :: after) (unrelated : m.Unrelated f g)
    (ran : m.run rounds overrides = .ok snapshots) :
    (m.withFlows (before ++ g :: f :: after)).run rounds overrides = .ok snapshots := by
  have same : (before ++ g :: f :: after).Perm m.flows := by
    rw [flows]
    exact (List.Perm.swap ..).append_left before
  have start : ∀ first, State.start m overrides = .ok ⟨m, 0, first⟩ →
      ∃ first', State.start (m.withFlows (before ++ g :: f :: after)) overrides =
        .ok ⟨m.withFlows (before ++ g :: f :: after), 0, first'⟩ ∧
        (first = first' ∧ first.names.Nodup) := by
    intro first started
    obtain ⟨-, _, _, -, filled, ⟨⟩⟩ := State.start_eq_ok_iff.1 started
    exact ⟨first, State.start_withFlows same started, rfl, State.nodup_names_of_fill filled⟩
  have step : ∀ values next values', m.Round values next →
      (values = values' ∧ values.names.Nodup) →
      ∃ next', (m.withFlows (before ++ g :: f :: after)).Round values' next' ∧
        (next = next' ∧ next.names.Nodup) := by
    rintro values next _ round ⟨rfl, distinct⟩
    exact ⟨next, round.exchange flows unrelated distinct, rfl, round.names_next ▸ distinct⟩
  obtain ⟨snapshots', ran', all⟩ := exists_run_of_round
    (R := fun values values' => values = values' ∧ values.names.Nodup) start step ran
  have equal : List.Forall₂ Eq snapshots snapshots' := all.imp fun _ _ related => related.1
  rw [List.forall₂_eq_eq_eq] at equal
  rw [ran', equal]

/-- Two unrelated flows that are declared one right after the other may as well be declared the other
way round: for all overrides and any number of rounds, the model with the two exchanged has the same
run, or it has none, either. -/
theorem run_exchange (flows : m.flows = before ++ f :: g :: after) (unrelated : m.Unrelated f g)
    (rounds : Nat) (overrides : Overrides α) (snapshots : List (Snapshot α)) :
    m.run rounds overrides = .ok snapshots ↔
      (m.withFlows (before ++ g :: f :: after)).run rounds overrides = .ok snapshots := by
  constructor
  · exact run_of_exchange flows unrelated
  · intro ran
    have back : (m.withFlows (before ++ g :: f :: after)).withFlows (before ++ f :: g :: after) = m := by
      rw [← flows]
      rfl
    have unrelated' : (m.withFlows (before ++ g :: f :: after)).Unrelated g f :=
      ⟨unrelated.symm.apart, unrelated.symm.unread, unrelated.symm.unread_other⟩
    rw [← back]
    exact run_of_exchange rfl unrelated' ran

/-- The second and the third flow are unrelated, although the rate of the third and the maximum of
its destination refer to the stock that the second one fills. -/
def crossing : Model Exact where
  stocks := [
    { name := "well", initial := .value (.whole "10") },
    { name := "tank", initial := .value (.whole "1"), maximum := .value (.whole "8") },
    { name := "lake", initial := .value (.whole "6") },
    { name := "pond", maximum := .thenValue (.value (.reference "tank")) .plus (.whole "4") }]
  flows := [
    ⟨"tank", "lake", ⟨.rate, .value (.whole "1")⟩⟩,
    ⟨"well", "tank", ⟨.rate, .value (.whole "3")⟩⟩,
    ⟨"lake", "pond", ⟨.rate, .value (.reference "tank")⟩⟩,
    ⟨"lake", "well", ⟨.leak, .value (.decimal "0.5")⟩⟩]

theorem run_crossing : crossing.run 2 [("lake", .ok (.finite 9))] = .ok [
    [("well", .finite 10), ("tank", .finite 1), ("lake", .finite 9), ("pond", .finite 0)],
    [("well", .finite 11), ("tank", .finite 3), ("lake", .finite 5), ("pond", .finite 1)],
    [("well", .finite 10), ("tank", .finite 5), ("lake", .finite 1), ("pond", .finite 4)]] := by
  decide +kernel

theorem run_exchange_crossing :
    ∃ first f g last snapshots, crossing.flows = [first, f, g, last] ∧ crossing.Unrelated f g ∧
      crossing.run 2 [("lake", .ok (.finite 9))] = .ok snapshots ∧
      (crossing.withFlows [first, g, f, last]).run 2 [("lake", .ok (.finite 9))] =
        .ok snapshots := by
  have unrelated : crossing.Unrelated ⟨"well", "tank", ⟨.rate, .value (.whole "3")⟩⟩
      ⟨"lake", "pond", ⟨.rate, .value (.reference "tank")⟩⟩ :=
    ⟨by decide, by decide +kernel, by decide +kernel⟩
  have flows : crossing.flows = [⟨"tank", "lake", ⟨.rate, .value (.whole "1")⟩⟩] ++ _ :: _ ::
      [⟨"lake", "well", ⟨.leak, .value (.decimal "0.5")⟩⟩] := rfl
  exact ⟨_, _, _, _, _, rfl, unrelated, run_crossing,
    (run_exchange flows unrelated 2 _ _).1 run_crossing⟩

end Model

end StockFlow
