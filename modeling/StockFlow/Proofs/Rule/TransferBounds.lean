import StockFlow.Attempt
import StockFlow.Flow
import StockFlow.Proofs.Quantity.ExactBounds

/-!
# Bounds of transfers

What a flow moves in exact arithmetic, whatever its kind and whatever its formula has been evaluated
to: never less than nothing and always a quantity, from a finite source no more than it holds, and
into a finite destination no more than it has room for.
-/

namespace StockFlow

open Quantity
open Exact (Nonneg NotAbove atMost_eq atMost_of_nonneg_sub atMost_refl atMost_trans
  exists_finite_of_atMost exists_finite_of_pos greater_zero_atMost greater_zero_finite
  lesser_atMost_left lesser_atMost_right lesser_nan_left lesser_ne_nan ne_nan_of_atMost
  nonneg_finite_iff nonneg_greater_zero nonneg_of_pos notAbove_finite_iff)

namespace Transfer

/-! ## Rates -/

theorem nonneg_rate (amount source room : Exact) :
    Nonneg (Transfer.rate amount source room).removed := by
  unfold Transfer.rate
  split
  · exact nonneg_greater_zero _
  · exact nonneg_finite_iff.2 le_rfl

/-- All that a rate takes arrives. -/
theorem added_rate {α : Type} [Quantity α] (amount source room : α) :
    (Transfer.rate amount source room).added = (Transfer.rate amount source room).removed := by
  unfold Transfer.rate
  split <;> rfl

/-- What a rate wants of a source is a number, and no more than the source holds. -/
theorem wanted_rate (amount : Exact) {source : Exact} (number : source ≠ .nan) :
    let wanted := if atMost Quantity.zero (source - amount) then amount else source
    wanted ≠ .nan ∧ wanted.atMost source = true := by
  simp only
  split
  · rename_i enough
    have within := atMost_of_nonneg_sub enough
    exact ⟨ne_nan_of_atMost within, within⟩
  · exact ⟨number, atMost_refl number⟩

theorem removed_rate_le (amount room : Exact) (held : Rat) :
    ∃ r, (Transfer.rate amount (.finite held) room).removed = .finite r ∧ 0 ≤ r ∧ r ≤ max 0 held := by
  unfold Transfer.rate
  split
  · obtain ⟨number, small⟩ := wanted_rate amount (Exact.finite_ne_nan held)
    exact ((NotAbove.of_atMost small).lesser_right number).greater_zero
  · exact ⟨0, rfl, le_rfl, le_max_left ..⟩

/-- A rate brings no more than there is room. -/
theorem added_rate_le (amount source : Exact) {room : Exact} (number : room ≠ .nan) :
    (Transfer.rate amount source room).added.atMost (greater Quantity.zero room) = true := by
  unfold Transfer.rate
  split
  · exact greater_zero_atMost fun _ => lesser_atMost_left number
  · exact nonneg_greater_zero room

/-! ## Leaks -/

theorem nonneg_leak (share source room : Exact) :
    Nonneg (Transfer.leak share source room).removed :=
  nonneg_greater_zero _

theorem removed_leak_le (share room : Exact) (held : Rat) :
    ∃ r, (Transfer.leak share (.finite held) room).removed = .finite r ∧ 0 ≤ r ∧ r ≤ max 0 held :=
  (NotAbove.lesser_left (notAbove_finite_iff.2 le_rfl)).greater_zero

/-- A leak brings no more than there is room, if that is a number. -/
theorem added_leak_le (share source : Exact) {room : Exact} (number : room ≠ .nan) :
    (Transfer.leak share source room).added.atMost (greater Quantity.zero room) = true := by
  have bounded : isNaN room = false := by
    rw [isNaN, atMost_eq, atMost_refl number]
    rfl
  unfold Transfer.leak
  simp only [bounded, Bool.false_eq_true, if_false]
  refine greater_zero_atMost fun fits => ?_
  have held : source ≠ .nan := fun none => fits (by rw [none, lesser_nan_left])
  have fitting := lesser_atMost_left (y := floor (source * share)) number
  exact atMost_trans (lesser_atMost_right held (lesser_ne_nan number)) fitting

/-! ## Conversions -/

/-- A conversion moves nothing, or both what it uses up and what it yields are positive. -/
theorem conversion_cases {α : Type} [Quantity α] (factor source destination room : α) :
    Transfer.conversion factor source destination room = .none ∨
      ∃ used, used = convertible factor source destination room ∧
        less Quantity.zero used = true ∧ less Quantity.zero (floor (used * factor)) = true ∧
        Transfer.conversion factor source destination room = ⟨used, floor (used * factor)⟩ := by
  unfold Transfer.conversion
  simp only
  split
  · rename_i uses
    split
    · rename_i yields
      exact .inr ⟨_, rfl, uses, yields, rfl⟩
    · exact .inl rfl
  · exact .inl rfl

theorem nonneg_conversion (factor source destination room : Exact) :
    Nonneg (Transfer.conversion factor source destination room).removed ∧
      Nonneg (Transfer.conversion factor source destination room).added := by
  rcases conversion_cases factor source destination room with none | ⟨used, -, uses, yields, moved⟩
  · rw [none]
    exact ⟨nonneg_finite_iff.2 le_rfl, nonneg_finite_iff.2 le_rfl⟩
  · rw [moved]
    exact ⟨nonneg_of_pos uses, nonneg_of_pos yields⟩

theorem removed_conversion_le (factor destination room : Exact) (held : Rat) :
    ∃ r, (Transfer.conversion factor (.finite held) destination room).removed = .finite r ∧ 0 ≤ r ∧
      r ≤ max 0 held := by
  rcases conversion_cases factor (.finite held) destination room with
    none | ⟨used, usable, uses, -, moved⟩
  · exact ⟨0, by rw [none]; rfl, le_rfl, le_max_left ..⟩
  · have small : NotAbove used held := by
      rw [usable, convertible]
      split
      · exact notAbove_finite_iff.2 le_rfl
      · exact NotAbove.lesser_left (notAbove_finite_iff.2 le_rfl)
    obtain ⟨r, same, pos, le⟩ := exists_finite_of_pos uses small
    exact ⟨r, by rw [moved]; exact same, pos.le, le_max_of_le_right le⟩

/-- The whole part of a product is within what the whole part of the quotient was taken of. -/
theorem floor_mul_le {u f rest : Rat} (pos : 0 < u) (le : u ≤ (Rat.floor (rest / f) : Int))
    (whole : 0 < (Rat.floor (u * f) : Rat)) : (Rat.floor (u * f) : Rat) ≤ rest := by
  have below : (Rat.floor (u * f) : Rat) ≤ u * f := Rat.floor_le _
  have positive : 0 < f := by
    by_contra negative
    have : u * f ≤ 0 := mul_nonpos_of_nonneg_of_nonpos pos.le (not_lt.1 negative)
    linarith
  calc (Rat.floor (u * f) : Rat) ≤ u * f := below
    _ ≤ rest / f * f := mul_le_mul_of_nonneg_right (le.trans (Rat.floor_le _)) positive.le
    _ = rest := div_mul_cancel₀ rest positive.ne'

/-- What comes of using up no more than `rest / factor` stays within `rest`. -/
theorem yield_le {factor source used : Exact} {rest : Rat}
    (usable : used = lesser source (floor (.finite rest / factor)))
    (uses : less Quantity.zero used = true) (yields : less Quantity.zero (floor (used * factor)) = true) :
    ∃ a, floor (used * factor) = .finite a ∧ 0 ≤ a ∧ a ≤ rest := by
  cases factor with
  | nan => cases used <;> cases yields
  | infinite s =>
    -- the quotient is zero, so nothing is used
    have none : NotAbove used 0 := by
      rw [usable]
      exact NotAbove.lesser_right (notAbove_finite_iff.2 le_rfl) (Exact.finite_ne_nan _)
    obtain ⟨u, -, pos, le⟩ := exists_finite_of_pos uses none
    exact absurd pos (not_lt.2 le)
  | finite f =>
    by_cases zero : f = 0
    · -- nothing comes of a factor of zero
      have nothing : ¬ (0 < Rat.floor 0) := by decide
      cases used <;> simp [zero, Exact.mul, Exact.infiniteBy, Exact.floor, Exact.less, nothing] at yields
    · have small : NotAbove used (Rat.floor (rest / f) : Int) := by
        rw [usable, Exact.div_eq, Exact.div, if_neg zero]
        exact NotAbove.lesser_right (notAbove_finite_iff.2 le_rfl) (Exact.finite_ne_nan _)
      obtain ⟨u, rfl, pos, le⟩ := exists_finite_of_pos uses small
      have whole : 0 < (Rat.floor (u * f) : Rat) := by
        simpa [Exact.mul, Exact.floor, Exact.less] using yields
      exact ⟨_, rfl, whole.le, floor_mul_le pos le whole⟩

/-- Between a finite destination and a finite room, what comes of a conversion fits into what is
left of the room. -/
theorem added_conversion_le (factor source : Exact) {held : Rat} (nonneg : 0 ≤ held) (capacity : Rat) :
    ∃ a, (Transfer.conversion factor source (.finite held) (.finite capacity)).added = .finite a ∧
      0 ≤ a ∧ a ≤ max 0 capacity := by
  rcases conversion_cases factor source (.finite held) (.finite capacity) with
    none | ⟨used, usable, uses, yields, moved⟩
  · exact ⟨0, by rw [none]; rfl, le_rfl, le_max_left ..⟩
  · obtain ⟨a, same, pos, le⟩ : ∃ a, floor (used * factor) = .finite a ∧ 0 ≤ a ∧
        a ≤ capacity + -held := yield_le usable uses yields
    exact ⟨a, by rw [moved]; exact same, pos, le_max_of_le_right (by linarith)⟩

end Transfer

namespace FlowKind

variable (kind : FlowKind) (evaluated source destination room : Exact)

theorem nonneg_removed : Nonneg (kind.transfer evaluated source destination room).removed := by
  cases kind with
  | rate => exact Transfer.nonneg_rate ..
  | conversion => exact (Transfer.nonneg_conversion ..).1
  | leak => exact Transfer.nonneg_leak ..

theorem nonneg_added : Nonneg (kind.transfer evaluated source destination room).added := by
  cases kind with
  | rate => exact Transfer.added_rate evaluated source room ▸ Transfer.nonneg_rate ..
  | conversion => exact (Transfer.nonneg_conversion ..).2
  | leak => exact Transfer.nonneg_leak ..

/-- From a finite source a flow takes no more than it holds. -/
theorem removed_le (held : Rat) :
    ∃ r, (kind.transfer evaluated (.finite held) destination room).removed = .finite r ∧ 0 ≤ r ∧
      r ≤ max 0 held := by
  cases kind with
  | rate => exact Transfer.removed_rate_le ..
  | conversion => exact Transfer.removed_conversion_le ..
  | leak => exact Transfer.removed_leak_le ..

/-- To a finite destination that is not negative a flow brings no more than it has room for. -/
theorem added_le {held : Rat} (nonneg : 0 ≤ held) (capacity : Rat) :
    ∃ a, (kind.transfer evaluated source (.finite held) (.finite capacity)).added = .finite a ∧
      0 ≤ a ∧ a ≤ max 0 capacity := by
  have some_number := Exact.finite_ne_nan capacity
  have is_nonneg := kind.nonneg_added evaluated source (.finite held) (.finite capacity)
  cases kind with
  | rate =>
    exact exists_finite_of_atMost is_nonneg
      (greater_zero_finite capacity ▸ Transfer.added_rate_le evaluated source some_number)
  | conversion => exact Transfer.added_conversion_le _ _ nonneg _
  | leak =>
    exact exists_finite_of_atMost is_nonneg
      (greater_zero_finite capacity ▸ Transfer.added_leak_le evaluated source some_number)

end FlowKind

/-! ## Rules and flows -/

/-- A rule moves what its kind makes of its evaluated formula. -/
theorem Rule.transfer_of_eval {α : Type} [Quantity α] {rule : Rule}
    {look : String → Except Fault α} {evaluated : α}
    (computed : rule.formula.eval look = .ok evaluated) (source destination room : α) :
    rule.transfer look source destination room =
      .ok (rule.kind.transfer evaluated source destination room) :=
  bind_eq_ok_iff.2 ⟨evaluated, computed, rfl⟩

/-- At a finite level a flow has the room that is left of a finite maximum. -/
theorem Flow.transfer_of_eval {flow : Flow} {destination : Stock}
    {look : String → Except Fault Exact} {evaluated : Exact} {most : Rat}
    (computed : flow.rule.formula.eval look = .ok evaluated)
    (bounded : destination.maximum.eval look = .ok (.finite most)) (source : Exact) (level : Rat) :
    flow.transfer destination look source (.finite level) =
      .ok (flow.rule.kind.transfer evaluated source (.finite level) (.finite (most + -level))) :=
  bind_eq_ok_iff.2 ⟨_, bind_eq_ok_iff.2 ⟨_, bounded, rfl⟩, Rule.transfer_of_eval computed ..⟩

end StockFlow
