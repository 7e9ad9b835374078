import StockFlow.Proofs.Simulation.Checking

/-!
# Checks that fail

Checking is meant to give issues, whatever is wrong with a model. It does for every model that does
not validate. For one that validates it evaluates the formulas of the stocks, and there a whole
number that cannot be read is a fault and not an issue: so it fails just if a stock of a validated
model spells such a number (`Model.check_fails`). The rates of flows do not matter, for they are not
evaluated.
-/

namespace StockFlow

open StockFlow.Text

variable {m : Model Float}

/-- The whole numbers that the formulas of a stock spell out. -/
def Stock.wholes (stock : Stock) : List String :=
  stock.initial.wholes ++ stock.maximum.wholes

/-! ## Formulas -/

namespace Formula

variable {α : Type} [Quantity α]

theorem no_wholeFault_of_value {look : String → Except Fault α} {v : Spec.Value} {x : α}
    (evaluated : v.eval look = .ok x) {digits : String} (spelled : digits ∈ valueWholes v)
    (fault : Fault) : ¬ WholeFault α digits fault := by
  cases v with
  | whole known =>
    obtain rfl := List.mem_singleton.1 spelled
    rw [Spec.Value.eval] at evaluated
    rintro (long | ⟨short, large⟩)
    · rw [if_pos long] at evaluated
      cases evaluated
    · rw [if_neg (Nat.not_lt_of_le short), large] at evaluated
      cases evaluated
  | decimal _ => cases spelled
  | infinity => cases spelled
  | reference _ => cases spelled

/-- A formula that has a quantity spells only whole numbers that can be read. -/
theorem no_wholeFault_of_eval {look : String → Except Fault α} {f : Formula} {x : α}
    (evaluated : f.eval look = .ok x) {digits : String} (spelled : digits ∈ f.wholes)
    (fault : Fault) : ¬ WholeFault α digits fault := by
  induction f generalizing x with
  | value v => exact no_wholeFault_of_value evaluated spelled fault
  | group f ih => exact ih evaluated spelled
  | thenValue left op v ih =>
    obtain ⟨_, first, evaluated⟩ := bind_eq_ok_iff.1 evaluated
    obtain ⟨_, second, -⟩ := bind_eq_ok_iff.1 evaluated
    rcases List.mem_append.1 spelled with before | here
    · exact ih first before
    · exact no_wholeFault_of_value second here fault
  | thenGroup left op f ih ih' =>
    obtain ⟨_, first, evaluated⟩ := bind_eq_ok_iff.1 evaluated
    obtain ⟨_, second, -⟩ := bind_eq_ok_iff.1 evaluated
    rcases List.mem_append.1 spelled with before | here
    · exact ih first before
    · exact ih' second here

end Formula

theorem WholeFault.not_isOfModel {α : Type} [Quantity α] {digits : String} {fault : Fault}
    (whole : WholeFault α digits fault) : fault.isOfModel = false := by
  cases whole <;> rfl

namespace Model

/-! ## The three outcomes -/

theorem check_of_order_error {fault : Fault} (failed : m.order = .error fault) :
    ∃ owner rest, m.check = .ok (.ofFault owner fault :: rest) := by
  obtain ⟨owner, rest, errors⟩ := exists_errors failed
  exact ⟨owner, rest, by rw [check, errors]⟩

theorem check_of_simulate {order : List String} (valid : m.order = .ok order) {state : State Float}
    (simulated : m.simulate [] = .ok state) : m.check = m.overfullIssues state.values := by
  rw [check, no_errors valid, simulated]

/-- What keeps the stocks of a validated model from being initialized is one of their initial
values. -/
theorem exists_initial_of_simulate (distinct : m.stockNames.Nodup) {order : List String}
    (valid : m.order = .ok order) {fault : Fault} (failed : m.simulate [] = .error fault) :
    ∃ stock ∈ m.stocks, ∃ digits ∈ stock.initial.wholes, WholeFault Float digits fault := by
  have unfilled : State.fill m [] (State.sequence m order) [] = .error fault := by
    rw [simulate, valid] at failed
    change State.start m [] = .error fault at failed
    rw [State.start, valid] at failed
    rcases bind_eq_error_iff.1 failed with failed | ⟨_, same, failed⟩
    · cases failed
    · obtain rfl := Except.ok.inj same
      rcases bind_eq_error_iff.1 failed with failed | ⟨_, -, failed⟩
      · exact failed
      · cases failed
  obtain ⟨before, name, after, values, split, filled, stuck⟩ := State.exists_of_fill_error unfilled
  obtain ⟨stock, found, -⟩ := startServed distinct valid [] before name after split values filled
  have evaluated : stock.initial.evalAt values = .error fault := by
    change (m.stock name >>= fun stock => stock.initial.evalAt values) = _ at stuck
    rwa [Model.stock, found] at stuck
  exact ⟨stock, List.mem_of_find?_eq_some found, Formula.whole_of_evalAt evaluated⟩

theorem check_of_simulate_error (distinct : m.stockNames.Nodup) {order : List String}
    (valid : m.order = .ok order) {fault : Fault} (failed : m.simulate [] = .error fault) :
    m.check = .error fault := by
  obtain ⟨_, -, _, -, whole⟩ := exists_initial_of_simulate distinct valid failed
  rw [check, no_errors valid, failed]
  simp [whole.not_isOfModel]

/-- What a model starts with: all its stocks, each as its initial value has it. -/
theorem exists_settled_of_simulate (distinct : m.stockNames.Nodup) {state : State Float}
    (simulated : m.simulate [] = .ok state) :
    m.stockNames ⊆ state.values.names ∧
      ∀ stock ∈ m.stocks, ∃ x, stock.initial.evalAt state.values = .ok x := by
  obtain ⟨_, -, started⟩ := bind_eq_ok_iff.1 simulated
  obtain ⟨order, valid, filled, -, -⟩ := State.exists_order_of_start started
  have once := State.nodup_sequence distinct valid
  obtain ⟨names, settled⟩ := State.filled_of_fill once (State.inOrder_sequence valid) filled
  have stocks : m.stockNames ⊆ state.values.names := fun name known => by
    rw [names]
    exact (State.mem_sequence_iff valid).2 known
  refine ⟨stocks, fun stock listed => ?_⟩
  have known := stocks (List.mem_map_of_mem listed)
  obtain ⟨x, entered⟩ := Snapshot.exists_entry known
  have value := (settled stock.name (names ▸ known)).trans entered
  have found : m.stock? stock.name = some stock := (stock?_eq_some_iff distinct).2 ⟨listed, rfl⟩
  change (m.stock stock.name >>= fun stock => stock.initial.evalAt state.values) = _ at value
  rw [Model.stock, found] at value
  exact ⟨x, value⟩

/-! ## Warnings -/

/-- What is found about the maxima of stocks are warnings. -/
theorem not_isError_of_overfullIssues {initial : Snapshot Float} {issues : List Issue}
    (done : m.overfullIssues initial = .ok issues) :
    ∀ issue ∈ issues, ¬ issue.isError = true := by
  intro issue listed
  obtain ⟨found, each, done⟩ := bind_eq_ok_iff.1 done
  obtain rfl := Except.ok.inj done
  obtain ⟨_, known, rfl⟩ := List.mem_filterMap.1 listed
  obtain ⟨stock, -, passed⟩ := exists_of_mem_mapM each known
  obtain ⟨maximum, -, passed⟩ := bind_eq_ok_iff.1 passed
  obtain ⟨value, -, passed⟩ := bind_eq_ok_iff.1 passed
  have decided := Except.ok.inj passed
  split at decided
  · rw [← Option.some.inj decided]
    exact Issue.not_isError_overfull _ _ _
  · cases decided

/-- A check finds an error just if the model does not validate. -/
theorem exists_isError_iff {issues : List Issue} (built : m.Built)
    (checked : m.check = .ok issues) :
    (∃ issue ∈ issues, issue.isError = true) ↔ ∃ fault, m.order = .error fault := by
  cases validated : m.order with
  | error fault =>
    obtain ⟨owner, rest, errors⟩ := check_of_order_error validated
    obtain rfl := Except.ok.inj (checked.symm.trans errors)
    exact ⟨fun _ => ⟨fault, rfl⟩, fun _ => ⟨_, List.mem_cons_self .., rfl⟩⟩
  | ok order =>
    refine ⟨?_, fun ⟨_, failed⟩ => nomatch failed⟩
    rintro ⟨issue, listed, error⟩
    cases simulated : m.simulate [] with
    | error fault =>
      rw [check_of_simulate_error built.nodup_stockNames validated simulated] at checked
      cases checked
    | ok state =>
      rw [check_of_simulate validated simulated] at checked
      exact absurd error (not_isError_of_overfullIssues checked issue listed)

/-! ## Numbers that cannot be read -/

theorem exists_evalAt_of_overfullIssues {initial : Snapshot Float} {issues : List Issue}
    (done : m.overfullIssues initial = .ok issues) {stock : Stock} (listed : stock ∈ m.stocks) :
    ∃ x, stock.maximum.evalAt initial = .ok x := by
  obtain ⟨found, each, -⟩ := bind_eq_ok_iff.1 done
  obtain ⟨_, passed⟩ := read_of_mem_mapM each listed
  obtain ⟨x, evaluated, -⟩ := bind_eq_ok_iff.1 passed
  exact ⟨x, evaluated⟩

/-- Where all stocks are there, only a maximum keeps the warnings from being found. -/
theorem exists_maximum_of_overfullIssues {initial : Snapshot Float}
    (names : m.stockNames ⊆ initial.names) {fault : Fault}
    (failed : m.overfullIssues initial = .error fault) :
    ∃ stock ∈ m.stocks, ∃ digits ∈ stock.maximum.wholes, WholeFault Float digits fault := by
  rcases bind_eq_error_iff.1 failed with failed | ⟨_, -, failed⟩
  · obtain ⟨i, stock, at_place, failed, -⟩ := mapM_eq_error_iff.1 failed
    have listed : stock ∈ m.stocks := List.mem_of_getElem? at_place
    rcases bind_eq_error_iff.1 failed with failed | ⟨_, -, failed⟩
    · exact ⟨stock, listed, Formula.whole_of_evalAt failed⟩
    · obtain ⟨x, found⟩ := Snapshot.exists_entry (names (List.mem_map_of_mem listed))
      rw [found] at failed
      cases failed
  · cases failed

/-- A fault of a check is that of a number which a formula of a stock spells out. -/
theorem Built.wholeFault_of_check (built : m.Built) {fault : Fault}
    (failed : m.check = .error fault) :
    (∃ order, m.order = .ok order) ∧
      ∃ stock ∈ m.stocks, ∃ digits ∈ stock.wholes, WholeFault Float digits fault := by
  have distinct := built.nodup_stockNames
  cases validated : m.order with
  | error other =>
    obtain ⟨_, _, checked⟩ := check_of_order_error validated
    rw [checked] at failed
    cases failed
  | ok order =>
    refine ⟨⟨order, rfl⟩, ?_⟩
    cases simulated : m.simulate [] with
    | error other =>
      obtain rfl : other = fault := by
        rw [check_of_simulate_error distinct validated simulated] at failed
        exact Except.error.inj failed
      obtain ⟨stock, listed, digits, spelled, whole⟩ :=
        exists_initial_of_simulate distinct validated simulated
      exact ⟨stock, listed, digits, List.mem_append_left _ spelled, whole⟩
    | ok state =>
      rw [check_of_simulate validated simulated] at failed
      obtain ⟨stock, listed, digits, spelled, whole⟩ := exists_maximum_of_overfullIssues
        (exists_settled_of_simulate distinct simulated).1 failed
      exact ⟨stock, listed, digits, List.mem_append_right _ spelled, whole⟩

theorem Readable.exists_issues (readable : m.Readable) (built : m.Built) :
    ∃ issues, m.check = .ok issues := by
  cases checked : m.check with
  | ok issues => exact ⟨issues, rfl⟩
  | error fault =>
    obtain ⟨-, stock, listed, digits, spelled, whole⟩ := built.wholeFault_of_check checked
    rcases List.mem_append.1 spelled with initial | maximum
    · exact absurd ⟨_, initial_mem_formulas listed, digits, initial, whole⟩
        (readable.no_literalFault fault)
    · exact absurd ⟨_, maximum_mem_formulas listed, digits, maximum, whole⟩
        (readable.no_literalFault fault)

/-- A check that goes through has read all numbers in the formulas of the stocks. -/
theorem Built.no_wholeFault_of_check (built : m.Built) {order : List String}
    (valid : m.order = .ok order) {issues : List Issue} (checked : m.check = .ok issues) :
    ∀ stock ∈ m.stocks, ∀ digits ∈ stock.wholes, ∀ fault, ¬ WholeFault Float digits fault := by
  intro stock listed digits spelled fault
  have distinct := built.nodup_stockNames
  cases simulated : m.simulate [] with
  | error other =>
    rw [check_of_simulate_error distinct valid simulated] at checked
    cases checked
  | ok state =>
    rw [check_of_simulate valid simulated] at checked
    rcases List.mem_append.1 spelled with initial | maximum
    · obtain ⟨x, evaluated⟩ := (exists_settled_of_simulate distinct simulated).2 stock listed
      exact Formula.no_wholeFault_of_eval evaluated initial fault
    · obtain ⟨x, evaluated⟩ := exists_evalAt_of_overfullIssues checked listed
      exact Formula.no_wholeFault_of_eval evaluated maximum fault

/-- Whatever is wrong with a model, checking gives its issues, unless it validates and a formula of
one of its stocks spells a whole number that cannot be read; the fault is that of such a number. -/
theorem check_fails (built : m.Built) :
    ((∃ issues, m.check = .ok issues) ↔ (∃ fault, m.order = .error fault) ∨
      ∀ stock ∈ m.stocks, ∀ digits ∈ stock.wholes, ∀ fault, ¬ WholeFault Float digits fault) ∧
    ∀ fault, m.check = .error fault → (∃ order, m.order = .ok order) ∧
      ∃ stock ∈ m.stocks, ∃ digits ∈ stock.wholes, WholeFault Float digits fault := by
  refine ⟨⟨?_, ?_⟩, fun fault => built.wholeFault_of_check⟩
  · rintro ⟨issues, checked⟩
    cases validated : m.order with
    | error fault => exact .inl ⟨fault, rfl⟩
    | ok order => exact .inr (built.no_wholeFault_of_check validated checked)
  · intro harmless
    cases checked : m.check with
    | ok issues => exact ⟨issues, rfl⟩
    | error fault =>
      obtain ⟨⟨order, valid⟩, stock, listed, digits, spelled, whole⟩ :=
        built.wholeFault_of_check checked
      rcases harmless with ⟨other, failed⟩ | readable
      · rw [valid] at failed
        cases failed
      · exact absurd whole (readable stock listed digits spelled fault)

/-! ## A number beyond the range -/

/-- The least power of ten that is beyond the range of doubles. -/
def beyondRange : String :=
  .ofList ('1' :: List.replicate 309 '0')

theorem toList_beyondRange : beyondRange.toList = '1' :: List.replicate 309 '0' :=
  String.toList_ofList

theorem wholeFault_beyondRange : WholeFault Float beyondRange .wholeTooLarge := by
  have length : wholeLength beyondRange = 310 :=
    (congrArg (List.countP isAsciiDigit) toList_beyondRange).trans (by decide +kernel)
  have value : wholeValue beyondRange = 10 ^ 309 := by
    have digits : digitsValue ('1' :: List.replicate 309 '0') = 10 ^ 309 := by decide +kernel
    rw [wholeValue, toList_beyondRange]
    exact (congrArg Int.ofNat digits).trans (by decide +kernel)
  have none : (Quantity.ofWhole? (10 ^ 309) : Option Float).isNone = true := by decide +kernel
  refine .tooLarge (length ▸ by decide) ?_
  rw [value]
  exact Option.isNone_iff_eq_none.1 none

theorem simulate_spelled_of_wholeFault {digits : String} {fault : Fault}
    (whole : WholeFault Float digits fault) : (spelled digits).simulate [] = .error fault := by
  have stuck : State.initialValue (spelled digits) [] [] "a" = .error fault :=
    whole.eval (Snapshot.look [])
  rw [simulate, order_spelled]
  change State.start (spelled digits) [] = _
  rw [State.start, order_spelled]
  change State.fill (spelled digits) [] ["a"] [] >>= _ = _
  rw [State.fill, List.foldlM_cons, stuck]
  rfl

theorem built_spelled (digits : String) : (spelled digits).Built :=
  .ofCalls "" _

theorem check_beyondRange : (spelled beyondRange).check = .error .wholeTooLarge :=
  check_of_simulate_error (by decide) (order_spelled _)
    (simulate_spelled_of_wholeFault wholeFault_beyondRange)

/-- The number beyond the range, next to a reference that dangles. -/
def danglingBeyond : Model Float :=
  (Builder.callAll { name := "dangling" } [
    .stock "a" (some (.value (.reference "c"))) none,
    .stock "b" (some (.value (.whole beyondRange))) none]).build

theorem check_fails_beyondRange :
    (∃ stock ∈ (spelled beyondRange).stocks, ∃ digits ∈ stock.wholes,
      WholeFault Float digits .wholeTooLarge) ∧
    ∃ issues, danglingBeyond.check = .ok issues := by
  have invalid : danglingBeyond.order = .error (.unresolvedReference "F(c)" "c") := by
    decide +kernel
  have built : danglingBeyond.Built := .ofCalls "dangling" _
  exact ⟨((check_fails (built_spelled _)).2 _ check_beyondRange).2,
    (check_fails built).1.2 (.inl ⟨_, invalid⟩)⟩

/-- A stock that starts beyond the range is all it takes. -/
theorem not_check_total : ¬ ∀ m : Model Float, m.Built → ∃ issues, m.check = .ok issues := by
  intro total
  obtain ⟨issues, checked⟩ := total _ (built_spelled beyondRange)
  cases check_beyondRange.symm.trans checked

end Model

end StockFlow
