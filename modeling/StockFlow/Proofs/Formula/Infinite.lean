import StockFlow.Attempt
import StockFlow.Proofs.Formula.Dependence
import StockFlow.Proofs.Quantity.SpecialValues
import StockFlow.Stock

/-!
# Infinite formulas

Whether a stock is infinite is found out by evaluating its initial value where no stock has a
quantity. A formula that refers to a stock is no number there (`Formula.eq_nan_of_references`), so a
stock that is found infinite refers to none, and is infinite at all moments
(`Stock.evalAt_of_isInfinite`).
-/

namespace StockFlow

open Quantity SpecialValues Spec

variable {α : Type} [Quantity α] [SpecialValues α]

omit [SpecialValues α] in
theorem Spec.Value.eq_nan_of_references {v : Value} {x : α} (refers : Formula.valueReferences v ≠ [])
    (computed : v.eval (Snapshot.look []) = .ok x) : x = nan := by
  cases v with
  | whole digits => exact absurd rfl refers
  | decimal digits => exact absurd rfl refers
  | infinity => exact absurd rfl refers
  | reference name => exact (Except.ok.inj computed).symm

/-- Without any stocks, a formula that refers to one is no number. -/
theorem Formula.eq_nan_of_references {f : Formula} {x : α} (refers : f.references ≠ [])
    (computed : f.evalAt [] = .ok x) : x = nan := by
  induction f generalizing x with
  | value v => exact v.eq_nan_of_references refers computed
  | group f ih => exact ih refers computed
  | thenValue left op v ih =>
    obtain ⟨y, left_computed, computed⟩ := bind_eq_ok_iff.1 computed
    obtain ⟨z, right_computed, computed⟩ := bind_eq_ok_iff.1 computed
    obtain rfl := Except.ok.inj computed
    by_cases alone : left.references = []
    · have right_refers : valueReferences v ≠ [] := fun none => refers (by simp [references, alone, none])
      rw [v.eq_nan_of_references right_refers right_computed]
      exact (apply_nan op y).2
    · rw [ih alone left_computed]
      exact (apply_nan op z).1
  | thenGroup left op f ih ih' =>
    obtain ⟨y, left_computed, computed⟩ := bind_eq_ok_iff.1 computed
    obtain ⟨z, right_computed, computed⟩ := bind_eq_ok_iff.1 computed
    obtain rfl := Except.ok.inj computed
    by_cases alone : left.references = []
    · have right_refers : f.references ≠ [] := fun none => refers (by simp [references, alone, none])
      rw [ih' right_refers right_computed]
      exact (apply_nan op y).2
    · rw [ih alone left_computed]
      exact (apply_nan op z).1

omit [SpecialValues α] in
/-- A formula that refers to no stock is the same whatever the stocks hold. -/
theorem Formula.evalAt_of_references_nil {f : Formula} (alone : f.references = [])
    (values values' : Snapshot α) : f.evalAt values = f.evalAt values' := by
  refine f.evalAt_congr fun name refers => ?_
  rw [alone] at refers
  cases refers

namespace Stock

variable {stock : Stock}

/-- A stock is infinite if its initial value is, without referring to any other. -/
theorem isInfinite_eq_ok_true_iff :
    stock.isInfinite α = .ok true ↔
      stock.initial.references = [] ∧ stock.initial.evalAt ([] : Snapshot α) = .ok infinity := by
  rw [isInfinite, map_eq_ok_iff]
  constructor
  · rintro ⟨x, computed, top⟩
    obtain rfl := (isTop_iff x).1 top
    refine ⟨?_, computed⟩
    by_contra refers
    exact infinity_ne_nan (Formula.eq_nan_of_references refers computed)
  · rintro ⟨-, computed⟩
    exact ⟨_, computed, (isTop_iff _).2 rfl⟩

/-- Then it starts infinite whatever the others hold. -/
theorem evalAt_of_isInfinite (infinite : stock.isInfinite α = .ok true) (values : Snapshot α) :
    stock.initial.evalAt values = .ok infinity := by
  obtain ⟨alone, computed⟩ := isInfinite_eq_ok_true_iff.1 infinite
  rw [← computed]
  exact Formula.evalAt_of_references_nil alone ..

/-- A stock whose initial value has not been given is not infinite. -/
theorem isInfinite_of_zero (start : stock.initial = .zero) : stock.isInfinite α = .ok false := by
  have nought : Formula.zero.evalAt ([] : Snapshot α) = .ok zero := by
    show (Value.whole "0").eval (Snapshot.look []) = .ok (zero : α)
    rw [Value.eval, if_neg (by decide), show wholeValue "0" = 0 by decide, ofWhole?_zero]
  have finite : isTop (zero : α) = false := Bool.eq_false_iff.2 (mt (isTop_iff _).1 zero_ne_infinity)
  rw [isInfinite, start, nought]
  exact congrArg Except.ok finite

end Stock

end StockFlow
