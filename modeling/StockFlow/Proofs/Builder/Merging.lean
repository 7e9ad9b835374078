import StockFlow.Proofs.Builder.Declaring

/-!
# Declarations in any order

Before there are flows, the only thing that a declaration of a finite stock depends on is what has
been declared of that stock, and the only way in which it fails is a conflict
(`Builder.settles_stock`). The first declaration of a stock looks like one that fills in the values
of a stock at its defaults. So each declaration fills two fields, or conflicts, and in a field the
order of what is filled in does not matter (`Formula.filledBy_right_comm`). Neither does it for the
builder (`Builder.stockAll_perm`).
-/

namespace StockFlow

/-! ## Fields -/

namespace Formula

/-- What a field holds once a value is given for it; nothing, if it already holds another one. A
default gives nothing. -/
def filledBy (current default wanted : Formula) : Option Formula :=
  if wanted = default ∨ wanted = current then some current
  else if current = default then some wanted
  else none

/-- A field at its default holds whatever is given. -/
theorem filledBy_default (default wanted : Formula) :
    default.filledBy default wanted = some wanted := by
  unfold filledBy
  by_cases same : wanted = default <;> simp [same]

/-- Two values can be given in either order: they have to agree with each other and with what is
there, defaults apart. -/
theorem filledBy_right_comm (current default first second : Formula) :
    ((current.filledBy default first).bind fun value => value.filledBy default second) =
      (current.filledBy default second).bind fun value => value.filledBy default first := by
  unfold filledBy
  by_cases start : current = default
  · subst start
    by_cases one : first = current <;> by_cases two : second = current <;>
      by_cases same : first = second <;> simp_all [eq_comm]
  · by_cases one : first = default ∨ first = current <;>
      by_cases two : second = default ∨ second = current <;> simp [one, two, start]

end Formula

/-! ## Stocks -/

/-- A declaration of a finite stock. -/
structure Declaration where
  name : String
  initial : Option Formula := none
  maximum : Option Formula := none
  deriving DecidableEq, Repr

/-- A stock once a declaration fills in its values; nothing, if one of them conflicts. -/
def Stock.filledBy (known : Stock) (d : Declaration) : Option Stock :=
  (known.initial.filledBy .zero (d.initial.getD .zero)).bind fun initial =>
    (known.maximum.filledBy .unbounded (d.maximum.getD .unbounded)).map fun maximum =>
      { known with initial, maximum }

/-- A stock at its defaults becomes what its first declaration says. -/
theorem Stock.filledBy_fresh (d : Declaration) :
    ({ name := d.name } : Stock).filledBy d =
      some { name := d.name, initial := d.initial.getD .zero,
             maximum := d.maximum.getD .unbounded } := by
  simp [filledBy, Formula.filledBy_default]

theorem Stock.name_filledBy {known full : Stock} {d : Declaration}
    (done : known.filledBy d = some full) : full.name = known.name := by
  obtain ⟨initial, -, done⟩ := Option.bind_eq_some_iff.1 done
  obtain ⟨maximum, -, rfl⟩ := Option.map_eq_some_iff.1 done
  rfl

/-- Two declarations fill the fields one by one. -/
theorem Stock.filledBy_filledBy (known : Stock) (first second : Declaration) :
    ((known.filledBy first).bind fun stock => stock.filledBy second) =
      ((known.initial.filledBy .zero (first.initial.getD .zero)).bind fun value =>
          value.filledBy .zero (second.initial.getD .zero)).bind fun initial =>
        ((known.maximum.filledBy .unbounded (first.maximum.getD .unbounded)).bind fun value =>
            value.filledBy .unbounded (second.maximum.getD .unbounded)).map fun maximum =>
          { known with initial, maximum } := by
  unfold filledBy
  cases known.initial.filledBy .zero (first.initial.getD .zero) with
  | none => rfl
  | some initial =>
    cases known.maximum.filledBy .unbounded (first.maximum.getD .unbounded) with
    | none => simp
    | some maximum => rfl

theorem Stock.filledBy_right_comm (known : Stock) (first second : Declaration) :
    ((known.filledBy first).bind fun stock => stock.filledBy second) =
      (known.filledBy second).bind fun stock => stock.filledBy first := by
  rw [filledBy_filledBy, filledBy_filledBy, Formula.filledBy_right_comm _ .zero,
    Formula.filledBy_right_comm _ .unbounded]

/-! ## Stocks by name -/

namespace Declaration

variable {stocks : String → Option Stock} {first second : Declaration}

/-- The stock of a declaration as it leaves it, one with the defaults if there is none yet; nothing,
if it conflicts. -/
def outcome (stocks : String → Option Stock) (d : Declaration) : Option Stock :=
  ((stocks d.name).getD { name := d.name }).filledBy d

/-- Stocks by name, once a declaration is made; nothing, if it conflicts. -/
def make (stocks : String → Option Stock) (d : Declaration) : Option (String → Option Stock) :=
  (d.outcome stocks).map fun stock => Function.update stocks d.name (some stock)

/-- Of two declarations of one stock the second fills what the first leaves. -/
theorem make_make_of_eq (same : first.name = second.name) :
    ((first.make stocks).bind fun stocks => second.make stocks) =
      ((first.outcome stocks).bind fun stock => stock.filledBy second).map fun stock =>
        Function.update stocks first.name (some stock) := by
  unfold make
  cases first.outcome stocks with
  | none => rfl
  | some stock => simp [outcome, ← same]

/-- Declarations of two stocks do not see each other. -/
theorem make_make_of_ne (apart : first.name ≠ second.name) :
    ((first.make stocks).bind fun stocks => second.make stocks) =
      (first.outcome stocks).bind fun stock => (second.outcome stocks).map fun other =>
        Function.update (Function.update stocks first.name (some stock)) second.name
          (some other) := by
  unfold make
  cases first.outcome stocks with
  | none => rfl
  | some stock => simp [outcome, Function.update_of_ne apart.symm]

theorem make_right_comm (stocks : String → Option Stock) (first second : Declaration) :
    ((first.make stocks).bind fun stocks => second.make stocks) =
      (second.make stocks).bind fun stocks => first.make stocks := by
  by_cases same : first.name = second.name
  · rw [make_make_of_eq same, make_make_of_eq same.symm, outcome, outcome, same,
      Stock.filledBy_right_comm]
  · rw [make_make_of_ne same, make_make_of_ne (Ne.symm same)]
    cases first.outcome stocks <;> cases second.outcome stocks <;>
      simp [Function.update_comm same]

/-- Declarations can be made in any order. -/
theorem foldlM_make_perm {given given' : List Declaration} (same : given.Perm given')
    (stocks : String → Option Stock) : given.foldlM make stocks = given'.foldlM make stocks := by
  induction same generalizing stocks with
  | nil => rfl
  | cons d _ ih =>
    rw [List.foldlM_cons, List.foldlM_cons]
    exact congrArg _ (funext ih)
  | swap first second rest =>
    simp only [List.foldlM_cons, ← bind_assoc]
    exact congrArg (· >>= _) (make_right_comm stocks second first)
  | trans _ _ ih ih' => rw [ih, ih']

end Declaration

namespace Builder

variable {α : Type} [Quantity α]

/-- Makes declarations one after the other, up to the first that fails. -/
def stockAll (b : Builder α) : List Declaration → Attempt (Builder α) Unit
  | [] => ⟨b, .ok ()⟩
  | d :: rest => (b.stock d.name d.initial d.maximum).andThen fun b _ => b.stockAll rest

/-- An attempt fails as a value conflicts with one that has been given. -/
def Conflicts {β : Type} (attempt : Attempt (Builder α) β) : Prop :=
  ∃ name current wanted spot,
    attempt.result = .error (.conflictingValues name current wanted spot)

/-- An attempt leaves a builder without flows that has the given stocks, or it conflicts where there
are none. -/
def Settles {β : Type} (attempt : Attempt (Builder α) β) : Option (String → Option Stock) → Prop
  | some stocks => (∃ x, attempt.result = .ok x) ∧ attempt.after.stock? = stocks ∧
      attempt.after.flows = []
  | none => Conflicts attempt

/-! ## What a declaration does -/

variable {b : Builder α}

theorem withInitial_eq_filledBy (no_flows : b.flows = []) (known : Stock) (wanted : Formula) :
    b.withInitial known wanted =
      match known.initial.filledBy .zero wanted with
      | some initial => .ok { known with initial }
      | none => .error (conflict known known.initial wanted) := by
  have passed : b.checkDrains { known with initial := wanted } = .ok () := by
    rw [checkDrains, no_flows]
    rfl
  simp only [withInitial, Formula.filledBy, Bool.or_eq_true, decide_eq_true_eq]
  split_ifs with nothing start
  · rfl
  · rw [passed]
    rfl
  · rfl

omit [Quantity α] in
theorem withMaximum_eq_filledBy (known : Stock) (wanted : Formula) :
    withMaximum known wanted =
      match known.maximum.filledBy .unbounded wanted with
      | some maximum => .ok { known with maximum }
      | none => .error (conflict known known.maximum wanted) := by
  simp only [withMaximum, Formula.filledBy, Bool.or_eq_true, decide_eq_true_eq]
  split_ifs with nothing start <;> rfl

/-- Without flows, filling in values succeeds just if neither of them conflicts. -/
theorem merge_without_flows (no_flows : b.flows = []) (known : Stock) (d : Declaration) :
    (∃ full, known.filledBy d = some full ∧
      b.merge known d.initial d.maximum = ⟨b.replace full, .ok full⟩) ∨
    known.filledBy d = none ∧ Conflicts (b.merge known d.initial d.maximum) := by
  rw [merge, withInitial_eq_filledBy no_flows]
  unfold Stock.filledBy
  cases known.initial.filledBy .zero (d.initial.getD .zero) with
  | none => exact .inr ⟨rfl, _, _, _, _, rfl⟩
  | some initial =>
    dsimp only
    rw [withMaximum_eq_filledBy]
    dsimp only
    cases known.maximum.filledBy .unbounded (d.maximum.getD .unbounded) with
    | none => exact .inr ⟨rfl, _, _, _, _, rfl⟩
    | some maximum =>
      refine .inl ⟨_, rfl, ?_⟩
      dsimp only
      rw [replace_replace]
      rfl

/-- Without flows, a declaration does to the stocks what it says, or it conflicts. -/
theorem settles_stock (no_flows : b.flows = []) (d : Declaration) :
    Settles (b.stock d.name d.initial d.maximum) (d.make b.stock?) := by
  rw [stock, Declaration.make, Declaration.outcome]
  cases found : b.stock? d.name with
  | none =>
    rw [Option.getD_none, Stock.filledBy_fresh]
    refine ⟨⟨_, rfl⟩, funext fun name => ?_, no_flows⟩
    dsimp only
    rw [stock?_add]
    by_cases here : name = d.name
    · rw [here, found, Function.update_self]
      exact if_pos rfl
    · rw [Function.update_of_ne here, if_neg (Ne.symm here), Option.or_none]
  | some known =>
    rw [Option.getD_some]
    dsimp only
    rcases merge_without_flows no_flows known d with ⟨full, fills, merged⟩ | ⟨stuck, conflicts⟩
    · have named : full.name = d.name := by rw [Stock.name_filledBy fills, stock?_name found]
      rw [fills, merged]
      refine ⟨⟨_, rfl⟩, funext fun name => ?_, no_flows⟩
      dsimp only
      rw [stock?_replace (named ▸ found), named]
      by_cases here : name = d.name
      · rw [here, if_pos rfl, Function.update_self]
      · rw [Function.update_of_ne here, if_neg (Ne.symm here)]
    · rw [stuck]
      exact conflicts

/-! ## What declarations do -/

theorem settles_stockAll (no_flows : b.flows = []) (given : List Declaration) :
    Settles (b.stockAll given) (given.foldlM Declaration.make b.stock?) := by
  induction given generalizing b with
  | nil => exact ⟨⟨(), rfl⟩, rfl, no_flows⟩
  | cons d rest ih =>
    have first := settles_stock no_flows d
    rw [stockAll, List.foldlM_cons]
    cases declares : d.make b.stock? with
    | none =>
      rw [declares] at first
      obtain ⟨name, current, wanted, spot, failed⟩ := first
      rw [Attempt.andThen_of_error failed]
      exact ⟨name, current, wanted, spot, rfl⟩
    | some stocks =>
      rw [declares] at first
      obtain ⟨⟨stock, done⟩, rfl, still_none⟩ := first
      rw [Attempt.andThen_of_ok done]
      exact ih still_none

/-- On a builder without flows the order of declarations does not matter: if they conflict with each
other or with what is there, then in any order, and otherwise none is refused in any order and each
stock ends up the same. -/
theorem stockAll_perm {b : Builder α} (no_flows : b.flows = []) {given given' : List Declaration}
    (same : given.Perm given') :
    Conflicts (b.stockAll given) ∧ Conflicts (b.stockAll given') ∨
      (b.stockAll given).result = .ok () ∧ (b.stockAll given').result = .ok () ∧
        ∀ name, (b.stockAll given).after.stock? name = (b.stockAll given').after.stock? name := by
  have one := settles_stockAll no_flows given
  have other := settles_stockAll no_flows given'
  rw [← Declaration.foldlM_make_perm same] at other
  cases settled : given.foldlM Declaration.make b.stock? with
  | none =>
    rw [settled] at one other
    exact .inl ⟨one, other⟩
  | some stocks =>
    rw [settled] at one other
    obtain ⟨⟨_, done⟩, stocks_eq, -⟩ := one
    obtain ⟨⟨_, done'⟩, stocks_eq', -⟩ := other
    refine .inr ⟨done, done', fun name => ?_⟩
    rw [stocks_eq, stocks_eq']

/-- The initial value and the maximum of one stock are given by two declarations, with one of
another stock in between, or the other way around. -/
theorem stockAll_perm_of_halves :
    let five : Formula := .value (.whole "5")
    let ten : Formula := .value (.whole "10")
    let given : List Declaration :=
      [{ name := "a", initial := some five }, { name := "b" }, { name := "a", maximum := some ten }]
    let given' : List Declaration :=
      [{ name := "a", maximum := some ten }, { name := "b" }, { name := "a", initial := some five }]
    let b : Builder Float := {}
    (b.stockAll given).after.stock? "a" = some { name := "a", initial := five, maximum := ten } ∧
      (Conflicts (b.stockAll given) ∧ Conflicts (b.stockAll given') ∨
        (b.stockAll given).result = .ok () ∧ (b.stockAll given').result = .ok () ∧
          ∀ name, (b.stockAll given).after.stock? name = (b.stockAll given').after.stock? name) :=
  ⟨by decide, stockAll_perm rfl (by decide)⟩

end Builder

end StockFlow
