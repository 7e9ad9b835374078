import StockFlow.Proofs.Quantity.ExactBounds
import StockFlow.Formula.Evaluation

/-!
# Laws of the special values

What infinity and the value that is no number do under the operations of an arithmetic
(`Quantity.SpecialValues`), whether or not it rounds, and what the lesser and the greater of two
quantities are where one of them is special.
-/

namespace StockFlow

open Quantity

/-- The laws of infinity and of what is no number, as floating point has them. -/
class Quantity.SpecialValues (α : Type) [Quantity α] : Prop where
  isTop_iff (x : α) : isTop x = true ↔ x = infinity
  isNaN_iff (x : α) : isNaN x = true ↔ x = nan
  infinity_ne_nan : (infinity : α) ≠ nan
  zero_ne_infinity : (zero : α) ≠ infinity
  zero_ne_nan : (zero : α) ≠ nan
  /-- Nought is spelled as a whole number. -/
  ofWhole?_zero : ofWhole? 0 = some (zero : α)
  /-- What is no number stays none, on either side of any operator. -/
  apply_nan (op : Spec.Operator) (x : α) : op.apply nan x = nan ∧ op.apply x nan = nan
  /-- Nothing compares with what is no number. -/
  less_nan (x : α) : less nan x = false ∧ less x nan = false
  atMost_nan (x : α) : atMost x nan = false
  atMost_zero_zero : atMost zero (zero : α) = true
  nonneg_of_pos {x : α} : less zero x = true → atMost zero x = true
  less_infinity {x : α} : x ≠ infinity → x ≠ nan → less x infinity = true
  infinity_not_less (x : α) : less infinity x = false
  infinity_sub {x : α} : x ≠ infinity → x ≠ nan → infinity - x = infinity
  infinity_sub_infinity : infinity - infinity = (nan : α)
  sub_ne_infinity {x y : α} : x ≠ infinity → atMost zero y = true → x - y ≠ infinity
  infinity_add {x : α} : atMost zero x = true → infinity + x = infinity
  add_nonneg {x y : α} : atMost zero x = true → atMost zero y = true → atMost zero (x + y) = true

/-! ## The lesser and the greater -/

namespace Quantity

variable {α : Type} [Quantity α] [SpecialValues α] {x y : α}

open SpecialValues

theorem ne_nan_of_nonneg (nonneg : atMost zero x = true) : x ≠ nan := by
  rintro rfl
  rw [atMost_nan] at nonneg
  cases nonneg

theorem ne_nan_of_pos (positive : less zero x = true) : x ≠ nan :=
  ne_nan_of_nonneg (nonneg_of_pos positive)

theorem pos_infinity : less zero (infinity : α) = true :=
  less_infinity zero_ne_infinity zero_ne_nan

theorem less_infinity_eq_false_iff : less x infinity = false ↔ x = infinity ∨ x = nan := by
  constructor
  · intro not_below
    by_contra ordinary
    rw [not_or] at ordinary
    rw [less_infinity ordinary.1 ordinary.2] at not_below
    cases not_below
  · rintro (rfl | rfl)
    · exact infinity_not_less _
    · exact (less_nan _).1

theorem atMost_zero_greater (x : α) : atMost zero (greater zero x) = true := by
  unfold greater
  split
  · rename_i positive
    exact nonneg_of_pos positive
  · exact atMost_zero_zero

theorem greater_zero_eq_infinity_iff : greater zero x = infinity ↔ x = infinity := by
  unfold greater
  constructor
  · intro same
    split at same
    · exact same
    · exact absurd same zero_ne_infinity
  · rintro rfl
    rw [if_pos pos_infinity]

/-- Only of two infinite quantities, or of one and what is no number, the lesser is infinite. -/
theorem lesser_eq_infinity_iff :
    lesser x y = infinity ↔ x = infinity ∧ (y = infinity ∨ y = nan) := by
  rw [← less_infinity_eq_false_iff]
  unfold lesser
  constructor
  · intro same
    split at same
    · rename_i below
      rw [same, infinity_not_less] at below
      cases below
    · rename_i not_below
      rw [same] at not_below
      exact ⟨same, Bool.eq_false_iff.2 not_below⟩
  · rintro ⟨rfl, not_below⟩
    rw [not_below]
    rfl

end Quantity

/-! ## Exact quantities -/

namespace Exact

theorem eq_of_ordinary {x : Exact} (bounded : x ≠ infinity) (number : x ≠ Quantity.nan) :
    x = .infinite true ∨ ∃ q, x = .finite q := by
  cases x with
  | nan => exact absurd rfl number
  | infinite negative =>
    cases negative with
    | false => exact absurd rfl bounded
    | true => exact .inl rfl
  | finite q => exact .inr ⟨q, rfl⟩

end Exact

instance : SpecialValues Exact where
  isTop_iff x := by
    cases x with
    | nan => decide
    | infinite negative => cases negative <;> decide
    | finite q => exact ⟨nofun, nofun⟩
  isNaN_iff x := by
    cases x with
    | nan => decide
    | infinite negative => cases negative <;> decide
    | finite q => simp [isNaN, atMost, Exact.atMost, nan]
  infinity_ne_nan := nofun
  zero_ne_infinity := nofun
  zero_ne_nan := nofun
  ofWhole?_zero := rfl
  apply_nan op x := by cases op <;> cases x <;> exact ⟨rfl, rfl⟩
  less_nan x := by cases x <;> exact ⟨rfl, rfl⟩
  atMost_nan x := by cases x <;> rfl
  atMost_zero_zero := by decide
  nonneg_of_pos := Exact.nonneg_of_pos
  less_infinity bounded number := by
    obtain rfl | ⟨q, rfl⟩ := Exact.eq_of_ordinary bounded number <;> rfl
  infinity_not_less x := by
    cases x with
    | nan => rfl
    | infinite negative => cases negative <;> rfl
    | finite q => rfl
  infinity_sub bounded number := by
    obtain rfl | ⟨q, rfl⟩ := Exact.eq_of_ordinary bounded number <;> rfl
  infinity_sub_infinity := rfl
  sub_ne_infinity {x y} bounded nonneg := by
    obtain rfl | ⟨q, rfl, -⟩ := Exact.nonneg_cases nonneg <;>
      cases x with
      | nan => exact nofun
      | infinite negative =>
        cases negative with
        | false => exact absurd rfl bounded
        | true => exact nofun
      | finite q => exact nofun
  infinity_add nonneg := by
    obtain rfl | ⟨q, rfl, -⟩ := Exact.nonneg_cases nonneg <;> rfl
  add_nonneg := Exact.nonneg_add

end StockFlow
