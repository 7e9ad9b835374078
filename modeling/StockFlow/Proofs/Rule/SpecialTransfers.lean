import StockFlow.Proofs.Quantity.SpecialValues
import StockFlow.Proofs.Rule.TransferBounds

/-!
# Transfers of special values

What a flow moves where infinity or what is no number takes part, by the laws of the special values
alone, so for doubles too. What arrives is zero or more (`FlowKind.atMost_zero_added`). An infinite
source is drained of infinitely much just by a rate without bound into room without bound
(`Transfer.removed_rate_eq_infinity_iff`). Nothing infinite arrives by a rate that is a finite number
(`Transfer.added_rate_ne_infinity`), nor by a leak from a source that is not infinite
(`Transfer.added_leak_ne_infinity`).
-/

namespace StockFlow

open Quantity SpecialValues

variable {α : Type} [Quantity α] [SpecialValues α]

namespace Transfer

/-- Infinitely much is taken of an infinite source where neither the rate nor the room is a bound. -/
theorem removed_rate_eq_infinity_iff {amount room : α} :
    (Transfer.rate amount infinity room).removed = infinity ↔
      room = infinity ∧ (amount = infinity ∨ amount = nan) := by
  rw [Transfer.rate, if_pos pos_infinity]
  show greater zero (lesser room _) = infinity ↔ _
  rw [greater_zero_eq_infinity_iff, lesser_eq_infinity_iff]
  refine and_congr_right fun _ => ?_
  by_cases top : amount = infinity
  · rw [top, infinity_sub_infinity, atMost_nan]
    simp
  · by_cases number : amount = nan
    · have nothing : infinity - amount = nan := number ▸ (apply_nan .minus infinity).2
      rw [nothing, atMost_nan, number]
      simp
    · rw [infinity_sub top number, if_pos (nonneg_of_pos pos_infinity)]

/-- By a rate that is a finite number nothing infinite arrives. -/
theorem added_rate_ne_infinity {amount : α} (bounded : amount ≠ infinity) (number : amount ≠ nan)
    (source room : α) : (Transfer.rate amount source room).added ≠ infinity := by
  rw [added_rate]
  by_cases top : source = infinity
  · rw [top, Ne, removed_rate_eq_infinity_iff]
    rintro ⟨-, same | same⟩
    · exact bounded same
    · exact number same
  · unfold Transfer.rate
    split
    · rename_i positive
      show greater zero (lesser room _) ≠ infinity
      rw [Ne, greater_zero_eq_infinity_iff, lesser_eq_infinity_iff]
      rintro ⟨-, unbounded⟩
      split at unbounded
      · exact unbounded.elim bounded number
      · exact unbounded.elim top (ne_nan_of_pos positive)
    · exact zero_ne_infinity

/-- A leak takes no more than there is. -/
theorem added_leak_ne_infinity {source : α} (bounded : source ≠ infinity) (share room : α) :
    (Transfer.leak share source room).added ≠ infinity := by
  show greater zero (lesser source _) ≠ infinity
  rw [Ne, greater_zero_eq_infinity_iff, lesser_eq_infinity_iff]
  exact fun ⟨top, _⟩ => bounded top

end Transfer

/-- What arrives is zero or more. -/
theorem FlowKind.atMost_zero_added (kind : FlowKind) (evaluated source destination room : α) :
    atMost zero (kind.transfer evaluated source destination room).added = true := by
  cases kind with
  | rate =>
    show atMost zero (Transfer.rate evaluated source room).added = true
    unfold Transfer.rate
    split
    · exact atMost_zero_greater _
    · exact atMost_zero_zero
  | conversion =>
    rcases Transfer.conversion_cases evaluated source destination room with
      none | ⟨used, -, -, yields, moved⟩
    · rw [FlowKind.transfer, none]
      exact atMost_zero_zero
    · rw [FlowKind.transfer, moved]
      exact nonneg_of_pos yields
  | leak => exact atMost_zero_greater _

/-- What is taken is zero or more, too: only a conversion does not bring all that it takes. -/
theorem FlowKind.atMost_zero_removed (kind : FlowKind) (evaluated source destination room : α) :
    atMost zero (kind.transfer evaluated source destination room).removed = true := by
  cases kind with
  | rate =>
    have nonneg := FlowKind.rate.atMost_zero_added evaluated source destination room
    rwa [FlowKind.transfer, Transfer.added_rate] at nonneg
  | conversion =>
    rcases Transfer.conversion_cases evaluated source destination room with
      none | ⟨used, -, uses, -, moved⟩
    · rw [FlowKind.transfer, none]
      exact atMost_zero_zero
    · rw [FlowKind.transfer, moved]
      exact nonneg_of_pos uses
  | leak => exact FlowKind.leak.atMost_zero_added evaluated source destination room

end StockFlow
