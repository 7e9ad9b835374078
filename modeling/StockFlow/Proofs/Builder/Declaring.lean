import Mathlib.Data.List.Induction
import StockFlow.Proofs.Builder.Invariant
import StockFlow.Proofs.Formula.Grammar
import StockFlow.Proofs.Formula.Infinite
import StockFlow.Proofs.Quantity.DoubleValues

/-!
# Declaring stocks again and again

A stock may be declared any number of times. What it is in the end can be read off the declarations
that name it, without regard to the others (`Stock.DeclaredBy`): the first one settles whether it is
hidden, and each of its formulas is the first one written that differs from the default.

A declaration adds a stock or fills in values of the one there is (`Builder.declares_of_declare`); so
the stocks of a builder are those of the declarations it has taken
(`Builder.DeclaredBy.declareAll`).
-/

namespace StockFlow

open StockFlow.Spec

/-! ## Names in order of appearance -/

theorem eraseDups_concat (names : List String) (name : String) :
    (names ++ [name]).eraseDups =
      if name ∈ names then names.eraseDups else names.eraseDups ++ [name] := by
  rw [List.eraseDups_append]
  by_cases known : name ∈ names <;> simp [List.removeAll, known, List.eraseDups_cons]

theorem nodup_eraseDups (names : List String) : names.eraseDups.Nodup := by
  induction names using List.reverseRecOn with
  | nil => exact List.nodup_nil
  | append_singleton names name ih =>
    rw [eraseDups_concat]
    split
    · exact ih
    · rename_i new
      rw [← List.concat_eq_append]
      exact ih.concat (mt List.mem_eraseDups.1 new)

/-! ## Declarations of one stock -/

namespace Spec.StockPiece

/-- The stock that is declared. -/
def name : StockPiece → String
  | finite name _ => name
  | infinite name => name

/-- The initial value as it is written. -/
def initial? : StockPiece → Option Expression
  | finite _ parameters => parameters[0]?
  | infinite _ => some Formula.unbounded.expression

/-- The maximum as it is written. -/
def maximum? : StockPiece → Option Expression
  | finite _ parameters => parameters[1]?
  | infinite _ => none

end Spec.StockPiece

/-- The first expression that differs from the default, or else the default. -/
def Spec.firstOther (default : Formula) (given : List Expression) : Expression :=
  (given.find? (· ≠ default.expression)).getD default.expression

/-- A stock as declarations of it, in their order, leave it. -/
structure Stock.DeclaredBy (stock : Stock) (given : List StockPiece) : Prop where
  hidden : stock.shown = false ↔ ∃ name, given.head? = some (.infinite name)
  initial : Formula.ofExpression (firstOther .zero (given.filterMap StockPiece.initial?)) =
    .ok stock.initial
  maximum : Formula.ofExpression (firstOther .unbounded (given.filterMap StockPiece.maximum?)) =
    .ok stock.maximum

namespace Formula

@[simp] theorem expression_inj {f g : Formula} : f.expression = g.expression ↔ f = g := by
  constructor
  · intro same
    have read : ofExpression f.expression = .ok g := ofExpression_eq_ok_iff.2 same.symm
    rw [ofExpression_eq_ok_iff.2 rfl] at read
    exact Except.ok.inj read
  · exact congrArg expression

@[simp] theorem ofExpression_expression (f : Formula) : ofExpression f.expression = .ok f :=
  ofExpression_eq_ok_iff.2 rfl

end Formula

theorem firstOther_concat (default : Formula) (given : List Expression) (e : Expression) :
    firstOther default (given ++ [e]) =
      if firstOther default given = default.expression then e else firstOther default given := by
  unfold firstOther
  rw [List.find?_append]
  cases found : given.find? (· ≠ default.expression) with
  | none =>
    by_cases same : e = default.expression
    · simp [same]
    · simp [same]
  | some first =>
    have other : first ≠ default.expression := by simpa using List.find?_some found
    simp [other]

/-- Filling in a value that is still at its default takes the first value that differs from it. -/
theorem firstOther_filled {default current : Formula} {given : List Expression}
    {written : Option Expression} {wanted : Option Formula}
    (before : Formula.ofExpression (firstOther default given) = .ok current)
    (read : optionalFormula written = .ok wanted) :
    Formula.ofExpression (firstOther default (given ++ written.toList)) =
      .ok (if current = default then wanted.getD default else current) := by
  have first := Formula.ofExpression_eq_ok_iff.1 before
  cases written with
  | none =>
    obtain rfl := Except.ok.inj read
    rw [Option.toList_none, List.append_nil, before, Option.getD_none]
    split
    · rename_i same
      rw [same]
    · rfl
  | some e =>
    obtain ⟨f, formula_read, rfl⟩ := map_eq_ok_iff.1 read
    rw [Option.toList_some, firstOther_concat, ← first, Option.getD_some]
    by_cases start : current = default
    · rw [if_pos (congrArg Formula.expression start), if_pos start]
      exact formula_read
    · rw [if_neg (mt Formula.expression_inj.1 start), if_neg start]
      exact Formula.ofExpression_expression current

namespace Builder

variable {α : Type} [Quantity α]

/-! ## What a declaration does -/

theorem withInitial_eq_ok {b : Builder α} {stock filled : Stock} {wanted : Formula}
    (done : b.withInitial stock wanted = .ok filled) :
    filled = { stock with initial := if stock.initial = .zero then wanted else stock.initial } := by
  rcases cases_of_withInitial done with ⟨rfl, same | same⟩ | ⟨start, -, rfl, -⟩
  · split
    · rename_i start
      rw [same, ← start]
    · rfl
  · rw [same, ite_self]
  · rw [if_pos start]

theorem withMaximum_eq_ok {stock full : Stock} {wanted : Formula}
    (done : withMaximum stock wanted = .ok full) :
    full =
      { stock with maximum := if stock.maximum = .unbounded then wanted else stock.maximum } := by
  rcases cases_of_withMaximum done with ⟨rfl, same | same⟩ | ⟨start, rfl⟩
  · split
    · rename_i start
      rw [same, ← start]
    · rfl
  · rw [same, ite_self]
  · rw [if_pos start]

/-- Filling in values that succeeds fills in the initial value, then the maximum. -/
theorem exists_of_merge_eq_ok {b : Builder α} {known full : Stock}
    {initial maximum : Option Formula} (done : (b.merge known initial maximum).result = .ok full) :
    ∃ filled, b.withInitial known (initial.getD .zero) = .ok filled ∧
      withMaximum filled (maximum.getD .unbounded) = .ok full ∧
      (b.merge known initial maximum).after = b.replace full := by
  unfold merge at done ⊢
  cases filling : b.withInitial known (initial.getD .zero) with
  | error fault =>
    rw [filling] at done
    cases done
  | ok filled =>
    rw [filling] at done
    cases capping : withMaximum filled (maximum.getD .unbounded) with
    | error fault =>
      simp only [capping] at done
      cases done
    | ok capped =>
      simp only [capping] at done ⊢
      obtain rfl := Except.ok.inj done
      have same_name : filled.name = capped.name := by rw [withMaximum_eq_ok capping]
      exact ⟨filled, rfl, capping, replace_replace b same_name⟩

/-- Values are filled in where the defaults were, and in no other stock. -/
theorem merge_eq_ok {b : Builder α} {known full : Stock} {initial maximum : Option Formula}
    (done : (b.merge known initial maximum).result = .ok full) :
    full = { known with
      initial := if known.initial = .zero then initial.getD .zero else known.initial
      maximum := if known.maximum = .unbounded then maximum.getD .unbounded else known.maximum } ∧
    (b.merge known initial maximum).after = b.replace full := by
  obtain ⟨filled, filling, capping, after⟩ := exists_of_merge_eq_ok done
  refine ⟨?_, after⟩
  rw [withMaximum_eq_ok capping, withInitial_eq_ok filling]

theorem flows_merge (b : Builder α) (stock : Stock) (initial maximum : Option Formula) :
    (b.merge stock initial maximum).after.flows = b.flows := by
  unfold merge
  split
  · rfl
  · split <;> rfl

theorem flows_declare (b : Builder α) (piece : StockPiece) :
    (b.declare piece).after.flows = b.flows := by
  cases piece with
  | infinite name =>
    rw [declare, infiniteStock]
    split <;> rfl
  | finite name parameters =>
    rw [declare]
    split
    · rw [stock]
      split
      · exact flows_merge ..
      · rfl
    · rfl

end Builder

namespace Stock.DeclaredBy

theorem infinite (name : String) : (Stock.infinite name).DeclaredBy [.infinite name] where
  hidden := ⟨fun _ => ⟨name, rfl⟩, fun _ => rfl⟩
  initial := Formula.ofExpression_expression .unbounded
  maximum := Formula.ofExpression_expression .unbounded

/-- What a first declaration leaves at its default is the default. -/
theorem finite {name : String} {parameters : List Expression} {initial maximum : Option Formula}
    (read : stockFormulas parameters = .ok (initial, maximum)) :
    DeclaredBy { name, initial := initial.getD .zero, maximum := maximum.getD .unbounded }
      [.finite name parameters] := by
  obtain ⟨first, first_read, read⟩ := bind_eq_ok_iff.1 read
  obtain ⟨second, second_read, read⟩ := bind_eq_ok_iff.1 read
  obtain ⟨rfl, rfl⟩ := Prod.mk.inj (Except.ok.inj read)
  have default_read : ∀ default, Formula.ofExpression (firstOther default []) = .ok default :=
    Formula.ofExpression_expression
  refine ⟨⟨fun shown => (nomatch shown), fun ⟨_, first⟩ => (nomatch first)⟩, ?_, ?_⟩
  · have filled := firstOther_filled (default_read .zero) first_read
    rwa [if_pos rfl] at filled
  · have filled := firstOther_filled (default_read .unbounded) second_read
    rwa [if_pos rfl] at filled

variable {known : Stock} {given : List StockPiece}

/-- A further declaration fills in values that are still at their defaults. -/
theorem finite_again (before : known.DeclaredBy given) (some : given ≠ [])
    {name : String} {parameters : List Expression} {initial maximum : Option Formula}
    (read : stockFormulas parameters = .ok (initial, maximum)) :
    DeclaredBy { known with
      initial := if known.initial = .zero then initial.getD .zero else known.initial
      maximum := if known.maximum = .unbounded then maximum.getD .unbounded else known.maximum }
      (given ++ [.finite name parameters]) := by
  obtain ⟨first, first_read, read⟩ := bind_eq_ok_iff.1 read
  obtain ⟨second, second_read, read⟩ := bind_eq_ok_iff.1 read
  obtain ⟨rfl, rfl⟩ := Prod.mk.inj (Except.ok.inj read)
  refine ⟨?_, ?_, ?_⟩
  · rw [List.head?_append_of_ne_nil given some]
    exact before.hidden
  · rw [List.filterMap_append]
    exact firstOther_filled before.initial first_read
  · rw [List.filterMap_append]
    exact firstOther_filled before.maximum second_read

/-- Declaring it infinite changes nothing of a stock that is infinite. -/
theorem infinite_again (before : known.DeclaredBy given) (some : given ≠ [])
    (top : known.isInfinite Float = .ok true) (name : String) :
    known.DeclaredBy (given ++ [.infinite name]) := by
  have filled : known.initial ≠ .zero := by
    intro start
    rw [Stock.isInfinite_of_zero start] at top
    cases top
  refine ⟨?_, ?_, ?_⟩
  · rw [List.head?_append_of_ne_nil given some]
    exact before.hidden
  · have read : optionalFormula (StockPiece.infinite name).initial? = .ok (.some .unbounded) := rfl
    have kept := firstOther_filled before.initial read
    rw [if_neg filled] at kept
    rw [List.filterMap_append]
    exact kept
  · rw [List.filterMap_append, show [StockPiece.infinite name].filterMap _ = [] from rfl,
      List.append_nil]
    exact before.maximum

end Stock.DeclaredBy

namespace Builder

/-- What a declaration makes of a builder and of the stock it names. -/
inductive Declares (b : Builder Float) (piece : StockPiece) (stock : Stock) : Builder Float → Prop
  /-- A new stock is as its first declaration says. -/
  | added (fresh : b.stock? piece.name = none) (named : stock.name = piece.name)
      (first : stock.DeclaredBy [piece]) : Declares b piece stock (b.add stock).after
  /-- Values of a known stock are filled in, as one more declaration asks. -/
  | filled {known : Stock} (found : b.stock? piece.name = some known)
      (named : stock.name = piece.name)
      (again : ∀ given, given ≠ [] → known.DeclaredBy given → stock.DeclaredBy (given ++ [piece])) :
      Declares b piece stock (b.replace stock)
  /-- A known stock stays, as it is what one more declaration asks for. -/
  | kept (found : b.stock? piece.name = some stock)
      (again : ∀ given, given ≠ [] → stock.DeclaredBy given → stock.DeclaredBy (given ++ [piece])) :
      Declares b piece stock b

theorem Declares.named {b after : Builder Float} {piece : StockPiece} {stock : Stock}
    (declares : b.Declares piece stock after) : stock.name = piece.name := by
  cases declares with
  | added _ named _ => exact named
  | filled _ named _ => exact named
  | kept found _ => exact stock?_name found

theorem declares_infiniteStock {b : Builder Float} {name : String} {stock : Stock}
    (done : (b.infiniteStock name).result = .ok stock) :
    b.Declares (.infinite name) stock (b.infiniteStock name).after := by
  rw [infiniteStock] at done ⊢
  cases found : b.stock? name with
  | none =>
    rw [found] at done
    obtain rfl := Except.ok.inj done
    exact .added found rfl (.infinite name)
  | some known =>
    rw [found] at done
    obtain ⟨top, infinite, done⟩ := bind_eq_ok_iff.1 done
    cases top with
    | false => cases done
    | true =>
      obtain rfl := Except.ok.inj done
      exact .kept found fun given some before => before.infinite_again some infinite name

theorem declares_stock {b : Builder Float} {name : String} {parameters : List Expression}
    {initial maximum : Option Formula} {stock : Stock}
    (read : stockFormulas parameters = .ok (initial, maximum))
    (done : (b.stock name initial maximum).result = .ok stock) :
    b.Declares (.finite name parameters) stock (b.stock name initial maximum).after := by
  rw [Builder.stock] at done ⊢
  cases found : b.stock? name with
  | none =>
    rw [found] at done
    obtain rfl := Except.ok.inj done
    exact .added found rfl (.finite read)
  | some known =>
    rw [found] at done
    obtain ⟨rfl, after⟩ := merge_eq_ok done
    have named : known.name = name := stock?_name found
    show b.Declares _ _ (b.merge known initial maximum).after
    rw [after]
    exact .filled found named fun given some before => before.finite_again some read

/-- Declaring a stock as it is written fails or does what the declaration asks. -/
theorem declares_of_declare {b : Builder Float} {piece : StockPiece} {stock : Stock}
    (done : (b.declare piece).result = .ok stock) :
    b.Declares piece stock (b.declare piece).after := by
  cases piece with
  | infinite name => exact declares_infiniteStock done
  | finite name parameters =>
    cases read : stockFormulas parameters with
    | error fault =>
      rw [declare, read] at done
      cases done
    | ok formulas =>
      have declared : b.declare (.finite name parameters) = b.stock name formulas.1 formulas.2 := by
        rw [declare, read]
      rw [declared] at done ⊢
      exact declares_stock read done

/-! ## Declarations of all stocks -/

/-- The stocks of a builder are those of declarations: in the order in which they first appear, each
as those that name it leave it. -/
structure DeclaredBy (b : Builder Float) (given : List StockPiece) : Prop where
  names : b.stockNames = (given.map StockPiece.name).eraseDups
  stocks : ∀ stock ∈ b.stocks, stock.DeclaredBy (given.filter (·.name == stock.name))

/-- The builder once stocks have been declared, one after the other. -/
def declareAll (b : Builder Float) (given : List StockPiece) : Except Fault (Builder Float) :=
  given.foldlM (fun b piece => (b.declare piece).result.map fun _ => (b.declare piece).after) b

theorem filter_concat_self (given : List StockPiece) {piece : StockPiece} {name : String}
    (same : name = piece.name) :
    (given ++ [piece]).filter (·.name == name) = given.filter (·.name == name) ++ [piece] := by
  simp [same]

theorem filter_concat_of_ne (given : List StockPiece) {piece : StockPiece} {name : String}
    (other : name ≠ piece.name) :
    (given ++ [piece]).filter (·.name == name) = given.filter (·.name == name) := by
  simp [other.symm]

namespace DeclaredBy

variable {b : Builder Float} {given : List StockPiece}

theorem start (name : String) : DeclaredBy { name := name } [] where
  names := rfl
  stocks := fun _ listed => nomatch listed

theorem distinct (before : b.DeclaredBy given) : b.stockNames.Nodup := by
  rw [before.names]
  exact nodup_eraseDups _

theorem mem_stockNames_iff (before : b.DeclaredBy given) {name : String} :
    name ∈ b.stockNames ↔ ∃ piece ∈ given, piece.name = name := by
  rw [before.names, List.mem_eraseDups, List.mem_map]

theorem filter_eq_nil_iff (before : b.DeclaredBy given) {name : String} :
    given.filter (·.name == name) = [] ↔ name ∉ b.stockNames := by
  rw [before.mem_stockNames_iff, List.filter_eq_nil_iff]
  simp

variable {piece : StockPiece} {stock : Stock}

/-- A stock that is added has no declaration before the one that adds it. -/
theorem add (before : b.DeclaredBy given) (fresh : b.stock? piece.name = none)
    (named : stock.name = piece.name) (first : stock.DeclaredBy [piece]) :
    (b.add stock).after.DeclaredBy (given ++ [piece]) := by
  have new : piece.name ∉ b.stockNames := stock?_eq_none_iff.1 fresh
  refine ⟨?_, fun other listed => ?_⟩
  · have unknown : piece.name ∉ given.map StockPiece.name := by
      rwa [← List.mem_eraseDups, ← before.names]
    rw [stockNames_add, List.map_append, List.map_singleton, eraseDups_concat, if_neg unknown,
      before.names, named]
  · rcases List.mem_append.1 listed with earlier | here
    · have differs : other.name ≠ piece.name := by
        intro same
        exact new (same ▸ List.mem_map_of_mem earlier)
      rw [filter_concat_of_ne given differs]
      exact before.stocks other earlier
    · obtain rfl := List.mem_singleton.1 here
      have none_before := before.filter_eq_nil_iff.2 (named ▸ new)
      rw [filter_concat_self given named, none_before]
      exact first

/-- A stock that is filled in has one more declaration; the others have not. -/
theorem replace {known : Stock} (before : b.DeclaredBy given)
    (found : b.stock? piece.name = some known) (named : stock.name = piece.name)
    (again : ∀ given, given ≠ [] → known.DeclaredBy given → stock.DeclaredBy (given ++ [piece])) :
    (b.replace stock).DeclaredBy (given ++ [piece]) := by
  have same_name : known.name = stock.name := (stock?_name found).trans named.symm
  have known_listed := List.mem_of_find?_eq_some found
  have taken : stock.name ∈ b.stockNames := same_name ▸ List.mem_map_of_mem known_listed
  refine ⟨?_, fun other listed => ?_⟩
  · have declared : piece.name ∈ given.map StockPiece.name := by
      rwa [← named, ← List.mem_eraseDups, ← before.names]
    rw [List.map_append, List.map_singleton, eraseDups_concat, if_pos declared, ← before.names]
    exact stockNames_replace b stock
  · rcases mem_replace listed with rfl | ⟨earlier, differs⟩
    · have some_before := mt before.filter_eq_nil_iff.1 (not_not_intro taken)
      rw [filter_concat_self given named]
      exact again _ some_before (same_name ▸ before.stocks known known_listed)
    · rw [filter_concat_of_ne given (named ▸ differs)]
      exact before.stocks other earlier

theorem declare (before : b.DeclaredBy given) (done : (b.declare piece).result = .ok stock) :
    (b.declare piece).after.DeclaredBy (given ++ [piece]) := by
  have declares := declares_of_declare done
  generalize (b.declare piece).after = after at declares ⊢
  cases declares with
  | added fresh named first => exact before.add fresh named first
  | filled found named again => exact before.replace found named again
  | kept found again =>
    have same := before.replace found (stock?_name found) again
    rwa [replace_self before.distinct found] at same

theorem declareAll (before : b.DeclaredBy given) {more : List StockPiece} {b' : Builder Float}
    (done : b.declareAll more = .ok b') : b'.DeclaredBy (given ++ more) := by
  induction more generalizing b given with
  | nil =>
    obtain rfl := Except.ok.inj done
    rwa [List.append_nil]
  | cons piece rest ih =>
    obtain ⟨_, first, done⟩ := bind_eq_ok_iff.1 done
    obtain ⟨stock, declared, rfl⟩ := map_eq_ok_iff.1 first
    rw [List.append_cons]
    exact ih (before.declare declared) done

end DeclaredBy

theorem flows_declareAll {b b' : Builder Float} {given : List StockPiece}
    (done : b.declareAll given = .ok b') : b'.flows = b.flows := by
  induction given generalizing b with
  | nil => rw [Except.ok.inj done]
  | cons piece rest ih =>
    obtain ⟨_, declared, done⟩ := bind_eq_ok_iff.1 done
    obtain ⟨_, -, rfl⟩ := map_eq_ok_iff.1 declared
    exact (ih done).trans (flows_declare b piece)

end Builder

end StockFlow
