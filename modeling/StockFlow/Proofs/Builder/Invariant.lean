import Mathlib.Data.List.Nodup
import StockFlow.Proofs.Builder.Changes

/-!
# What builders keep

Invariants of calls, failed ones included, and so of every model that is built: no two stocks have
the same name, and flows join stocks of the model.

A value of a stock that has been given is never changed (`Builder.exists_keptBy_call`).

A flow that takes a share of its source is never left with an infinite one
(`Builder.sharesFinite_call`): it is not added to such a source (`Builder.flow_of_infinite`), and
its source is not made infinite behind it (`Builder.stock_of_infinite`).
-/

namespace StockFlow

/-- The values that have been given of a stock are the same in a later version of it. -/
structure Stock.KeptBy (known later : Stock) : Prop where
  initial : known.initial ≠ .zero → later.initial = known.initial
  maximum : known.maximum ≠ .unbounded → later.maximum = known.maximum

theorem Stock.KeptBy.refl (stock : Stock) : stock.KeptBy stock :=
  ⟨fun _ => rfl, fun _ => rfl⟩

theorem Stock.KeptBy.trans {first second third : Stock} (kept : first.KeptBy second)
    (kept_later : second.KeptBy third) : first.KeptBy third := by
  constructor
  · intro given
    have same := kept.initial given
    rw [kept_later.initial (same ▸ given), same]
  · intro given
    have same := kept.maximum given
    rw [kept_later.maximum (same ▸ given), same]

namespace Builder

variable {α : Type}

/-- The names of the stocks, in order of declaration. -/
def stockNames (b : Builder α) : List String :=
  b.stocks.map Stock.name

theorem stock?_eq_none_iff {b : Builder α} {name : String} :
    b.stock? name = none ↔ name ∉ b.stockNames := by
  simp [stock?, stockNames]

theorem stockNames_add (b : Builder α) (stock : Stock) :
    (b.add stock).after.stockNames = b.stockNames ++ [stock.name] := by
  simp [stockNames, add]

theorem stockNames_replace (b : Builder α) (stock : Stock) :
    (b.replace stock).stockNames = b.stockNames :=
  names_replace b stock

theorem mem_stockNames_iff {b : Builder α} {name : String} :
    name ∈ b.stockNames ↔ ∃ stock, b.stock? name = some stock := by
  rw [← Option.ne_none_iff_exists', Ne, stock?_eq_none_iff, not_not]

theorem replace_self {b : Builder α} (distinct : b.stockNames.Nodup) {name : String} {known : Stock}
    (found : b.stock? name = some known) : b.replace known = b := by
  have listed := List.mem_of_find?_eq_some found
  have stocks : b.stocks.map (fun old => if old.name = known.name then known else old) = b.stocks := by
    refine (List.map_congr_left fun old old_listed => ?_).trans (List.map_id _)
    split
    · rename_i same
      exact (List.inj_on_of_nodup_map distinct old_listed listed same).symm
    · rfl
  rw [replace, stocks]

/-- A name that is not taken keeps the names distinct. -/
theorem nodup_stockNames_add {b : Builder α} (distinct : b.stockNames.Nodup) {stock : Stock}
    (fresh : b.stock? stock.name = none) : (b.add stock).after.stockNames.Nodup := by
  rw [stockNames_add]
  refine List.nodup_append.2 ⟨distinct, by simp, ?_⟩
  intro name known name' new
  rw [List.mem_singleton.1 new]
  rintro rfl
  exact stock?_eq_none_iff.1 fresh known

variable [Quantity α]

/-- What holds of a builder and is kept by every call holds after all calls. -/
theorem callAll_induct {motive : Builder α → Prop} {b : Builder α} (start : motive b)
    (step : ∀ b call, motive b → motive (b.call call).after) (calls : List Call) :
    motive (b.callAll calls) := by
  induction calls generalizing b with
  | nil => exact start
  | cons call rest ih => exact ih (step b call start)

theorem nodup_stockNames_call (b : Builder α) (call : Call) (distinct : b.stockNames.Nodup) :
    (b.call call).after.stockNames.Nodup := by
  have changes := changes_call b call
  generalize (b.call call).after = after at changes ⊢
  cases changes with
  | kept => exact distinct
  | stockAdded _ fresh => exact nodup_stockNames_add distinct fresh
  | stockFilled _ _ => rwa [stockNames_replace]
  | flowAdded _ _ _ => exact distinct

/-! ## Values that have been given -/

/-- A stock stays, with the values that have been given of it. -/
theorem exists_keptBy_call {b : Builder α} {name : String} {known : Stock}
    (found : b.stock? name = some known) (call : Call) :
    ∃ later, (b.call call).after.stock? name = some later ∧ known.KeptBy later := by
  have changes := changes_call b call
  generalize (b.call call).after = after at changes ⊢
  cases changes with
  | kept => exact ⟨known, found, .refl known⟩
  | stockAdded _ _ =>
    refine ⟨known, ?_, .refl known⟩
    rw [stock?_add, found]
    rfl
  | @stockFilled _ old stock old_found initial maximum =>
    by_cases here : stock.name = name
    · obtain rfl : known = old := Option.some.inj (found.symm.trans (here ▸ old_found))
      refine ⟨stock, by rw [stock?_replace old_found, if_pos here], ?_, ?_⟩
      · intro given
        exact initial.resolve_right fun unset => given unset.1
      · exact maximum.resolve_right
    · refine ⟨known, ?_, .refl known⟩
      rw [stock?_replace old_found, if_neg here, found]
  | flowAdded _ _ _ => exact ⟨known, found, .refl known⟩

/-! ## Flows -/

/-- Both ends of each flow are stocks that have been declared. -/
def EndsDeclared (b : Builder α) : Prop :=
  ∀ flow ∈ b.flows, flow.source ∈ b.stockNames ∧ flow.destination ∈ b.stockNames

omit [Quantity α] in
/-- Further stocks leave the ends of flows declared. -/
theorem EndsDeclared.mono {b b' : Builder α} (declared : b.EndsDeclared)
    (flows : b'.flows = b.flows) (names : b.stockNames ⊆ b'.stockNames) : b'.EndsDeclared := by
  intro flow listed
  rw [flows] at listed
  exact ⟨names (declared flow listed).1, names (declared flow listed).2⟩

theorem endsDeclared_call (b : Builder α) (call : Call) (declared : b.EndsDeclared) :
    (b.call call).after.EndsDeclared := by
  have changes := changes_call b call
  generalize (b.call call).after = after at changes ⊢
  cases changes with
  | kept => exact declared
  | stockAdded _ _ =>
    exact declared.mono rfl (by rw [stockNames_add]; exact List.subset_append_left ..)
  | stockFilled _ _ =>
    exact declared.mono rfl (by rw [stockNames_replace]; exact List.Subset.refl _)
  | @flowAdded flow source destination source_found destination_found _ =>
    intro other listed
    rcases List.mem_append.1 listed with before | here
    · exact declared other before
    · obtain rfl := List.mem_singleton.1 here
      exact ⟨mem_stockNames_iff.2 ⟨_, source_found⟩, mem_stockNames_iff.2 ⟨_, destination_found⟩⟩

/-! ## Shares -/

/-- No stock is infinite that a flow takes a share of. -/
def SharesFinite (b : Builder α) : Prop :=
  ∀ name stock, b.stock? name = some stock → b.DrainsFinite stock

/-- A call leaves no infinite stock to a flow that takes a share. The ends of flows have to be
declared, or else a stock could be added below a flow. -/
theorem sharesFinite_call (b : Builder α) (call : Call) (declared : b.EndsDeclared)
    (finite : b.SharesFinite) : (b.call call).after.SharesFinite := by
  have changes := changes_call b call
  generalize (b.call call).after = after at changes ⊢
  cases changes with
  | kept => exact finite
  | @stockAdded _ stock _ fresh =>
    intro name other found
    rw [stock?_add] at found
    cases known : b.stock? name with
    | some old =>
      rw [known, Option.some_or] at found
      obtain rfl := Option.some.inj found
      exact finite name old known
    | none =>
      rw [known, Option.none_or] at found
      split at found
      · obtain rfl := Option.some.inj found
        intro flow listed drains _
        exact absurd (drains ▸ (declared flow listed).1) (stock?_eq_none_iff.1 fresh)
      · cases found
  | @stockFilled _ known stock found initial =>
    intro name other other_found
    rw [stock?_replace found] at other_found
    split at other_found
    · obtain rfl := Option.some.inj other_found
      rcases initial with same | ⟨-, fits⟩
      · exact (finite _ known found).congr (stock?_name found).symm same
      · exact fits
    · exact finite name other other_found
  | @flowAdded flow source destination source_found _ fits =>
    intro name stock found other listed drains shares
    rcases List.mem_append.1 listed with before | here
    · exact finite name stock found other before drains shares
    · obtain rfl := List.mem_singleton.1 here
      obtain rfl : stock = source := by
        rw [drains, stock?_name found] at source_found
        exact Option.some.inj (found.symm.trans source_found)
      exact fits shares

theorem sharesFinite_callAll (name : String) (calls : List Call) :
    (callAll ({ name } : Builder α) calls).SharesFinite := by
  have start : ({ name } : Builder α).EndsDeclared ∧ ({ name } : Builder α).SharesFinite :=
    ⟨fun flow listed => (nomatch listed), fun _ _ found => (nomatch found)⟩
  refine (callAll_induct (motive := fun b => b.EndsDeclared ∧ b.SharesFinite) start ?_ calls).2
  exact fun b call ⟨declared, finite⟩ =>
    ⟨endsDeclared_call b call declared, sharesFinite_call b call declared finite⟩

/-- A flow that takes a share is not added to an infinite source. -/
theorem flow_of_infinite {b : Builder α} {source destination : FlowEnd} {start goal : Stock}
    {rule : Rule} (source_found : b.resolve source = .ok start)
    (destination_found : b.resolve destination = .ok goal) (shares : rule.kind.takesShare = true)
    (infinite : start.isInfinite α = .ok true) :
    b.flow source destination rule = ⟨b, .error (.illegalSource rule.text start.text)⟩ := by
  have refused : b.flowBetween source destination rule =
      .error (.illegalSource rule.text start.text) := by
    rw [flowBetween, source_found, destination_found]
    show Flow.between α start goal rule = _
    exact bind_eq_error_iff.2 (.inl (Rule.checkSource_of_infinite shares infinite))
  rw [flow, refused]

/-- The source of a flow that takes a share is not made infinite. -/
theorem stock_of_infinite {b : Builder α} {name : String} {known : Stock} {wanted : Formula}
    {flow : Flow} (finite : b.SharesFinite) (found : b.stock? name = some known)
    (start : known.initial = .zero) (infinite : { known with initial := wanted }.isInfinite α = .ok true)
    (listed : flow ∈ b.flows) (drains : flow.source = name)
    (shares : flow.rule.kind.takesShare = true) (maximum : Option Formula) :
    ∃ first ∈ b.flows, first.source = name ∧ first.rule.kind.takesShare = true ∧
      b.stock name (some wanted) maximum =
        ⟨b, .error (.illegalSource first.rule.text known.text)⟩ := by
  obtain rfl := stock?_name found
  have other : wanted ≠ .zero := by
    rintro rfl
    have was_finite := finite _ known found flow listed drains shares
    rw [Stock.isInfinite_congr (show known.initial = { known with initial := .zero }.initial from start),
      infinite] at was_finite
    cases was_finite
  have drained : flow.source = { known with initial := wanted }.name := drains
  obtain ⟨first, first_listed, first_drains, first_shares, refused⟩ :=
    exists_of_checkDrains listed drained shares infinite
  refine ⟨first, first_listed, first_drains, first_shares, ?_⟩
  have stuck : b.withInitial known wanted = .error (.illegalSource first.rule.text known.text) := by
    rw [withInitial, if_neg (by simp [other, start]), if_pos start]
    exact bind_eq_error_iff.2 (.inl refused)
  rw [stock, found]
  simp only [merge, Option.getD_some, stuck]

end Builder

/-- A model that is built has no two stocks of one name. -/
theorem Model.Built.nodup_stockNames {α : Type} [Quantity α] {m : Model α} (built : m.Built) :
    m.stockNames.Nodup := by
  obtain ⟨name, calls, rfl⟩ := built.exists_calls
  have start : ({ name } : Builder α).stockNames.Nodup := List.nodup_nil
  exact Builder.callAll_induct (motive := fun b => b.stockNames.Nodup) start
    Builder.nodup_stockNames_call calls

/-- The flows of a model that is built join stocks of the model. -/
theorem Model.Built.ends_declared {α : Type} [Quantity α] {m : Model α} (built : m.Built) :
    ∀ flow ∈ m.flows, flow.source ∈ m.stockNames ∧ flow.destination ∈ m.stockNames := by
  obtain ⟨name, calls, rfl⟩ := built.exists_calls
  have start : ({ name } : Builder α).EndsDeclared := fun flow listed => nomatch listed
  exact Builder.callAll_induct (motive := Builder.EndsDeclared) start Builder.endsDeclared_call
    calls

/-- In a model that is built no stock is infinite that a flow takes a share of. -/
theorem Model.Built.finite_of_takesShare {α : Type} [Quantity α] {m : Model α} (built : m.Built)
    {flow : Flow} (listed : flow ∈ m.flows) (shares : flow.rule.kind.takesShare = true)
    {stock : Stock} (found : m.stock? flow.source = some stock) : stock.isInfinite α = .ok false := by
  obtain ⟨name, calls, rfl⟩ := built.exists_calls
  have finite := Builder.sharesFinite_callAll (α := α) name calls
  exact finite flow.source stock found flow listed (Builder.stock?_name found).symm shares

end StockFlow
