import StockFlow.Proofs.Builder.History

/-!
# What calls change

A call adds a stock, fills in values of one, adds a flow, or changes nothing
(`Builder.changes_call`); one that fails may have filled in a value before. What calls keep is read
off these four cases.
-/

namespace StockFlow

/-- Going through a list succeeds just if it does at each member. -/
theorem forM_eq_ok_iff {ε β : Type} {check : β → Except ε PUnit} {given : List β} :
    given.forM check = .ok () ↔ ∀ a ∈ given, check a = .ok () := by
  induction given with
  | nil => exact ⟨fun _ _ listed => (nomatch listed), fun _ => rfl⟩
  | cons first rest ih =>
    have unfolded : (first :: rest).forM check = check first >>= fun _ => rest.forM check := rfl
    rw [unfolded, bind_eq_ok_iff, List.forall_mem_cons, ← ih]
    exact ⟨fun ⟨_, passed, others⟩ => ⟨passed, others⟩, fun ⟨passed, others⟩ => ⟨_, passed, others⟩⟩

section Sources

variable {α : Type} [Quantity α]

/-- A rule accepts all sources, unless it takes a share; then the source must not be infinite. -/
theorem Rule.checkSource_eq_ok_iff {rule : Rule} {source : Stock} :
    rule.checkSource α source = .ok () ↔
      (rule.kind.takesShare = true → source.isInfinite α = .ok false) := by
  unfold checkSource
  split
  · rename_i shares
    rw [bind_eq_ok_iff]
    constructor
    · rintro ⟨top, infinite, passed⟩ -
      cases top with
      | false => exact infinite
      | true => cases passed
    · intro finite
      exact ⟨false, finite shares, rfl⟩
  · rename_i whole
    exact ⟨fun _ shares => absurd shares whole, fun _ => rfl⟩

theorem Rule.checkSource_of_infinite {rule : Rule} {source : Stock}
    (shares : rule.kind.takesShare = true) (infinite : source.isInfinite α = .ok true) :
    rule.checkSource α source = .error (.illegalSource rule.text source.text) := by
  rw [checkSource, if_pos shares, infinite]
  rfl

/-- Whether a stock is infinite is a matter of its initial value. -/
theorem Stock.isInfinite_congr {stock stock' : Stock} (same : stock.initial = stock'.initial) :
    stock.isInfinite α = stock'.isInfinite α := by
  rw [isInfinite, isInfinite, same]

end Sources

namespace Builder

/-! ## Stocks in their places -/

section Places

variable {α : Type}

theorem mem_replace {b : Builder α} {full stock : Stock} (listed : stock ∈ (b.replace full).stocks) :
    stock = full ∨ stock ∈ b.stocks ∧ stock.name ≠ full.name := by
  obtain ⟨old, known, rfl⟩ := List.mem_map.1 listed
  split
  · exact .inl rfl
  · rename_i other
    exact .inr ⟨known, other⟩

/-- Of two stocks put in one place the second stays. -/
theorem replace_replace (b : Builder α) {first second : Stock} (same : first.name = second.name) :
    (b.replace first).replace second = b.replace second := by
  simp only [replace, List.map_map]
  congr 1
  apply List.map_congr_left
  intro old _
  by_cases here : old.name = second.name <;> simp [here, same]

/-- A stock that is put in place is found under its name, the others as before. -/
theorem stock?_replace {b : Builder α} {stock known : Stock}
    (found : b.stock? stock.name = some known) (name : String) :
    (b.replace stock).stock? name = if stock.name = name then some stock else b.stock? name := by
  have same_name : known.name = stock.name := stock?_name found
  have names : (fun old : Stock => (if old.name = stock.name then stock else old).name == name) =
      (·.name == name) := by
    funext old
    split
    · rename_i same
      rw [same]
    · rfl
  have looked_up : (b.replace stock).stock? name =
      (b.stock? name).map fun old => if old.name = stock.name then stock else old := by
    rw [stock?, replace, List.find?_map, Function.comp_def, names]
    rfl
  rw [looked_up]
  by_cases here : stock.name = name
  · rw [if_pos here, ← here, found, Option.map_some, if_pos same_name]
  · rw [if_neg here]
    cases other : b.stock? name with
    | none => rfl
    | some old =>
      have differs : old.name ≠ stock.name := fun same => here (same.symm.trans (stock?_name other))
      rw [Option.map_some, if_neg differs]

theorem stock?_add (b : Builder α) (stock : Stock) (name : String) :
    (b.add stock).after.stock? name =
      (b.stock? name).or (if stock.name = name then some stock else none) := by
  rw [stock?, add, List.find?_append]
  by_cases same : stock.name = name <;> simp [stock?, same]

end Places

variable {α : Type} [Quantity α]

/-! ## Sources of flows -/

/-- No flow that takes a share of a stock of this name has too much to take it from. -/
def DrainsFinite (b : Builder α) (stock : Stock) : Prop :=
  ∀ flow ∈ b.flows, flow.source = stock.name → flow.rule.kind.takesShare = true →
    stock.isInfinite α = .ok false

theorem checkDrains_eq_ok_iff {b : Builder α} {stock : Stock} :
    b.checkDrains stock = .ok () ↔ b.DrainsFinite stock := by
  refine forM_eq_ok_iff.trans (forall₂_congr fun flow _ => ?_)
  by_cases drains : flow.source = stock.name
  · rw [if_pos drains, Rule.checkSource_eq_ok_iff]
    exact ⟨fun finite _ => finite, fun finite => finite drains⟩
  · rw [if_neg drains]
    exact ⟨fun _ same => absurd same drains, fun _ => rfl⟩

/-- An infinite stock is refused for the first flow that takes a share of it. -/
theorem exists_of_checkDrains {b : Builder α} {stock : Stock} {flow : Flow} (listed : flow ∈ b.flows)
    (drains : flow.source = stock.name) (shares : flow.rule.kind.takesShare = true)
    (infinite : stock.isInfinite α = .ok true) :
    ∃ first ∈ b.flows, first.source = stock.name ∧ first.rule.kind.takesShare = true ∧
      b.checkDrains stock = .error (.illegalSource first.rule.text stock.text) := by
  unfold checkDrains
  generalize b.flows = flows at listed ⊢
  induction flows with
  | nil => cases listed
  | cons head rest ih =>
    by_cases here : head.source = stock.name ∧ head.rule.kind.takesShare = true
    · refine ⟨head, List.mem_cons_self .., here.1, here.2, bind_eq_error_iff.2 (.inl ?_)⟩
      exact (if_pos here.1).trans (Rule.checkSource_of_infinite here.2 infinite)
    · have passed : (if head.source = stock.name then head.rule.checkSource α stock else .ok ()) =
          .ok () := by
        split
        · rename_i same
          exact Rule.checkSource_eq_ok_iff.2 fun shares => absurd ⟨same, shares⟩ here
        · rfl
      have later : flow ∈ rest := by
        rcases List.mem_cons.1 listed with rfl | later
        · exact absurd ⟨drains, shares⟩ here
        · exact later
      obtain ⟨first, known, source, kind, failed⟩ := ih later
      exact ⟨first, List.mem_cons_of_mem _ known, source, kind,
        bind_eq_error_iff.2 (.inr ⟨(), passed, failed⟩)⟩

/-! ## The four cases -/

/-- The name of the stock that a call declares. -/
def Call.declares? : Call → Option String
  | stock name _ _ | infiniteStock name => some name
  | flow .. => none

/-- What a call makes of a builder. -/
inductive Changes (b : Builder α) : Call → Builder α → Prop
  /-- Nothing changes. -/
  | kept (call : Call) : Changes b call b
  /-- A stock is added under a new name. -/
  | stockAdded {call : Call} {stock : Stock} (named : call.declares? = some stock.name)
      (fresh : b.stock? stock.name = none) : Changes b call (b.add stock).after
  /-- Values of a stock are filled in. Its initial value is changed only where none has been given,
  and then to one that all flows from it can take; its maximum, too, only where none has been
  given. -/
  | stockFilled {call : Call} {known stock : Stock} (found : b.stock? stock.name = some known)
      (initial : stock.initial = known.initial ∨ known.initial = .zero ∧ b.DrainsFinite stock)
      (maximum : stock.maximum = known.maximum ∨ known.maximum = .unbounded) :
      Changes b call (b.replace stock)
  /-- A flow is added between two stocks of the builder, the source of which it can take. -/
  | flowAdded {flow : Flow} {source destination : Stock}
      (source_found : b.stock? flow.source = some source)
      (destination_found : b.stock? flow.destination = some destination)
      (finite : flow.rule.kind.takesShare = true → source.isInfinite α = .ok false) :
      Changes b (.flow (.declared flow.source) (.declared flow.destination) flow.rule)
        { b with flows := b.flows ++ [flow] }

/-- Filling in an initial value changes nothing, since it asks for nothing or for what is there, or
else none has been given and all flows from the stock can take the new one. -/
theorem cases_of_withInitial {b : Builder α} {known filled : Stock} {wanted : Formula}
    (done : b.withInitial known wanted = .ok filled) :
    filled = known ∧ (wanted = .zero ∨ wanted = known.initial) ∨
      known.initial = .zero ∧ wanted ≠ .zero ∧
        filled = { known with initial := wanted } ∧ b.DrainsFinite filled := by
  unfold withInitial at done
  split at done
  · rename_i nothing
    exact .inl ⟨(Except.ok.inj done).symm, by simpa using nothing⟩
  · rename_i asked
    split at done
    · rename_i start
      obtain ⟨_, passed, done⟩ := bind_eq_ok_iff.1 done
      obtain rfl := Except.ok.inj done
      refine .inr ⟨start, ?_, rfl, checkDrains_eq_ok_iff.1 passed⟩
      rintro rfl
      simp at asked
    · cases done

omit [Quantity α] in
/-- Filling in a maximum changes nothing, since it asks for nothing or for what is there, or else
none has been given. -/
theorem cases_of_withMaximum {filled full : Stock} {wanted : Formula}
    (done : withMaximum filled wanted = .ok full) :
    full = filled ∧ (wanted = .unbounded ∨ wanted = filled.maximum) ∨
      filled.maximum = .unbounded ∧ full = { filled with maximum := wanted } := by
  unfold withMaximum at done
  split at done
  · rename_i nothing
    exact .inl ⟨(Except.ok.inj done).symm, by simpa using nothing⟩
  · split at done
    · rename_i start
      exact .inr ⟨start, (Except.ok.inj done).symm⟩
    · cases done

theorem DrainsFinite.congr {b : Builder α} {stock stock' : Stock} (finite : b.DrainsFinite stock)
    (name : stock'.name = stock.name) (initial : stock'.initial = stock.initial) :
    b.DrainsFinite stock' := by
  intro flow listed drains shares
  rw [Stock.isInfinite_congr initial]
  exact finite flow listed (drains.trans name) shares

/-- Filling in values changes the one stock, or nothing where the initial value cannot be filled
in; where only the maximum cannot, the initial value stays filled in. -/
theorem changes_merge {b : Builder α} {call : Call} {known : Stock}
    (found : b.stock? known.name = some known) (initial maximum : Option Formula) :
    b.Changes call (b.merge known initial maximum).after := by
  unfold merge
  split
  · exact .kept call
  · rename_i filled filling
    have name : filled.name = known.name := by
      rcases cases_of_withInitial filling with ⟨rfl, -⟩ | ⟨-, -, rfl, -⟩ <;> rfl
    have limit : filled.maximum = known.maximum := by
      rcases cases_of_withInitial filling with ⟨rfl, -⟩ | ⟨-, -, rfl, -⟩ <;> rfl
    have value : filled.initial = known.initial ∨ known.initial = .zero ∧ b.DrainsFinite filled := by
      rcases cases_of_withInitial filling with ⟨rfl, -⟩ | ⟨start, -, -, finite⟩
      · exact .inl rfl
      · exact .inr ⟨start, finite⟩
    have filled_found : b.stock? filled.name = some known := by rw [name, found]
    split
    · exact .stockFilled filled_found value (.inl limit)
    · rename_i full capping
      change b.Changes call ((b.replace filled).replace full)
      rcases cases_of_withMaximum capping with ⟨rfl, -⟩ | ⟨start, rfl⟩
      · rw [replace_replace b rfl]
        exact .stockFilled filled_found value (.inl limit)
      · have same_name : filled.name =
            { filled with maximum := maximum.getD .unbounded : Stock }.name := rfl
        rw [replace_replace b same_name]
        refine .stockFilled filled_found (value.imp_right fun ⟨unset, finite⟩ => ⟨unset, ?_⟩)
          (.inr (limit ▸ start))
        exact finite.congr rfl rfl

omit [Quantity α] in
theorem resolve_eq_ok_iff {b : Builder α} {place : FlowEnd} {stock : Stock} :
    b.resolve place = .ok stock ↔ place = .declared stock.name ∧ b.stock? stock.name = some stock := by
  cases place with
  | foreign name => simp [resolve]
  | declared name =>
    rw [resolve]
    cases found : b.stock? name with
    | none =>
      refine ⟨fun h => (nomatch h), fun ⟨same, h⟩ => ?_⟩
      rw [FlowEnd.declared.inj same, h] at found
      cases found
    | some known =>
      have named := stock?_name found
      constructor
      · intro same
        obtain rfl := Except.ok.inj same
        exact ⟨by rw [named], named ▸ found⟩
      · rintro ⟨same, h⟩
        rw [FlowEnd.declared.inj same, h] at found
        rw [Option.some.inj found]

/-- A flow joins two stocks of the builder, of which the source can be drained by its rule. -/
theorem flowBetween_eq_ok_iff {b : Builder α} {source destination : FlowEnd} {rule : Rule}
    {flow : Flow} :
    b.flowBetween source destination rule = .ok flow ↔
      source = .declared flow.source ∧ destination = .declared flow.destination ∧
        rule = flow.rule ∧ ∃ start goal, b.stock? flow.source = some start ∧
          b.stock? flow.destination = some goal ∧
          (rule.kind.takesShare = true → start.isInfinite α = .ok false) := by
  constructor
  · intro made
    obtain ⟨start, start_found, made⟩ := bind_eq_ok_iff.1 made
    obtain ⟨goal, goal_found, made⟩ := bind_eq_ok_iff.1 made
    obtain ⟨_, checked, made⟩ := bind_eq_ok_iff.1 made
    obtain rfl := Except.ok.inj made
    obtain ⟨source_eq, start_known⟩ := resolve_eq_ok_iff.1 start_found
    obtain ⟨destination_eq, goal_known⟩ := resolve_eq_ok_iff.1 goal_found
    exact ⟨source_eq, destination_eq, rfl, start, goal, start_known, goal_known,
      Rule.checkSource_eq_ok_iff.1 checked⟩
  · rintro ⟨rfl, rfl, rfl, start, goal, start_found, goal_found, finite⟩
    have start_named := stock?_name start_found
    have goal_named := stock?_name goal_found
    refine bind_eq_ok_iff.2 ⟨start, resolve_eq_ok_iff.2 ?_, ?_⟩
    · rw [start_named]
      exact ⟨rfl, start_found⟩
    · refine bind_eq_ok_iff.2 ⟨goal, resolve_eq_ok_iff.2 ?_, ?_⟩
      · rw [goal_named]
        exact ⟨rfl, goal_found⟩
      · refine bind_eq_ok_iff.2 ⟨(), Rule.checkSource_eq_ok_iff.2 finite, ?_⟩
        rw [start_named, goal_named]
        rfl

/-- A call does one of four things. -/
theorem changes_call (b : Builder α) (call : Call) : b.Changes call (b.call call).after := by
  cases call with
  | stock name initial maximum =>
    rw [Builder.call, after_andThen_unit, stock]
    split
    · rename_i known found
      have named := stock?_name found
      exact changes_merge (named ▸ found) initial maximum
    · rename_i fresh
      exact .stockAdded rfl fresh
  | infiniteStock name =>
    rw [Builder.call, after_andThen_unit, infiniteStock]
    split
    · rename_i fresh
      exact .stockAdded rfl fresh
    · exact .kept _
  | flow source destination rule =>
    rw [Builder.call, after_andThen_unit, flow]
    split
    · rename_i flow made
      obtain ⟨rfl, rfl, rfl, start, goal, start_found, goal_found, finite⟩ :=
        flowBetween_eq_ok_iff.1 made
      exact .flowAdded start_found goal_found finite
    · exact .kept _

end Builder

end StockFlow
