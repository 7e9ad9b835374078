import StockFlow.Proofs.Rule.TransferBounds

/-!
# Limits of transfers

In exact arithmetic every transfer keeps to the same limits, whatever its formula has been evaluated
to and whatever stands at its ends, infinities and what is no number included
(`Transfer.InLimits`): both of its amounts are zero or more and positive together, no more is taken
than there is, and no more arrives than there is room for. A conversion looks at its room only
between finite quantities, and brings whole amounts. So no flow lifts a finite level above a finite
maximum (`Flow.transfer_inLimits`).
-/

namespace StockFlow

open Quantity
open Exact (Nonneg atMost_of_less atMost_refl atMost_trans exists_finite_of_atMost
  greater_zero_finite lesser_atMost_left lesser_atMost_right lesser_nan_left ne_nan_of_less
  nonneg_greater_zero pos_greater_zero)

/-- What a flow of some kind may move, between these quantities at its ends and with that room. -/
structure Transfer.InLimits (kind : FlowKind) (source destination room : Exact)
    (moved : Transfer Exact) : Prop where
  nonneg_removed : Nonneg moved.removed
  nonneg_added : Nonneg moved.added
  /-- Something is taken just if something arrives. -/
  pos_iff : less Quantity.zero moved.removed = true ↔ less Quantity.zero moved.added = true
  removed_le : less Quantity.zero moved.removed = true → atMost moved.removed source = true
  arrives : kind ≠ .conversion → moved.added = moved.removed
  added_le : kind ≠ .conversion → room ≠ .nan →
    atMost moved.added (greater Quantity.zero room) = true
  whole : kind = .conversion → moved.added = infinity ∨ ∃ n : Int, moved.added = .finite n
  yield_le : kind = .conversion → ∀ level capacity, destination = .finite level → 0 ≤ level →
    room = .finite capacity → atMost moved.added (greater Quantity.zero room) = true

namespace Transfer

variable {source room : Exact}

/-- The lesser of two quantities is not positive if the first is no number. -/
theorem ne_nan_of_pos_lesser {x y : Exact} (positive : less Quantity.zero (lesser x y) = true) :
    x ≠ .nan := by
  rintro rfl
  rw [lesser_nan_left] at positive
  cases positive

theorem removed_rate_atMost (amount : Exact)
    (positive : less Quantity.zero (Transfer.rate amount source room).removed = true) :
    atMost (Transfer.rate amount source room).removed source = true := by
  unfold Transfer.rate at positive ⊢
  split at positive
  · rename_i holds
    rw [if_pos holds]
    obtain ⟨fitting, same⟩ := pos_greater_zero positive
    obtain ⟨number, wanted⟩ := wanted_rate amount (ne_nan_of_less holds)
    have least := lesser_atMost_right (ne_nan_of_pos_lesser fitting) number
    exact (congrArg (atMost · source) same).trans (atMost_trans least wanted)
  · cases positive

theorem removed_leak_atMost (share : Exact)
    (positive : less Quantity.zero (Transfer.leak share source room).removed = true) :
    atMost (Transfer.leak share source room).removed source = true := by
  obtain ⟨fitting, same⟩ := pos_greater_zero positive
  exact (congrArg (atMost · source) same).trans (lesser_atMost_left (ne_nan_of_pos_lesser fitting))

/-- What a conversion uses up is part of the source. -/
theorem convertible_atMost {factor destination : Exact}
    (positive : less Quantity.zero (convertible factor source destination room) = true) :
    atMost (convertible factor source destination room) source = true := by
  unfold convertible at positive ⊢
  split
  · rename_i unbounded
    rw [if_pos unbounded] at positive
    exact atMost_refl (ne_nan_of_less positive)
  · rename_i bounded
    rw [if_neg bounded] at positive
    exact lesser_atMost_left (ne_nan_of_pos_lesser positive)

/-- A whole part that is positive is a whole number, or infinite. -/
theorem floor_cases {x : Exact} (positive : less Quantity.zero (floor x) = true) :
    floor x = infinity ∨ ∃ n : Int, floor x = .finite n := by
  cases x with
  | nan => cases positive
  | infinite negative =>
    cases negative with
    | false => exact .inl rfl
    | true => cases positive
  | finite q => exact .inr ⟨q.floor, rfl⟩

/-! ## The three kinds -/

theorem inLimits_rate (amount source destination room : Exact) :
    (Transfer.rate amount source room).InLimits .rate source destination room where
  nonneg_removed := nonneg_rate ..
  nonneg_added := added_rate amount source room ▸ nonneg_rate ..
  pos_iff := by rw [added_rate]
  removed_le := removed_rate_atMost amount
  arrives _ := added_rate ..
  added_le _ number := added_rate_le amount source number
  whole := nofun
  yield_le := nofun

theorem inLimits_leak (share source destination room : Exact) :
    (Transfer.leak share source room).InLimits .leak source destination room where
  nonneg_removed := nonneg_leak ..
  nonneg_added := nonneg_leak ..
  pos_iff := Iff.rfl
  removed_le := removed_leak_atMost share
  arrives _ := rfl
  added_le _ number := added_leak_le share source number
  whole := nofun
  yield_le := nofun

/-- Moving nothing keeps to all limits of a conversion. -/
theorem inLimits_none (source destination room : Exact) :
    Transfer.none.InLimits .conversion source destination room where
  nonneg_removed := rfl
  nonneg_added := rfl
  pos_iff := Iff.rfl
  removed_le := nofun
  arrives other := absurd rfl other
  added_le other := absurd rfl other
  whole _ := .inr ⟨0, rfl⟩
  yield_le _ _ _ _ _ _ := nonneg_greater_zero room

theorem inLimits_conversion (factor source destination room : Exact) :
    (Transfer.conversion factor source destination room).InLimits .conversion source destination
      room := by
  have nonneg := nonneg_conversion factor source destination room
  have yield_le : ∀ level capacity, destination = .finite level → 0 ≤ level →
      room = .finite capacity →
      atMost (Transfer.conversion factor source destination room).added
        (greater Quantity.zero room) = true := by
    rintro level capacity rfl level_nonneg rfl
    obtain ⟨a, same, -, le⟩ := added_conversion_le factor source level_nonneg capacity
    rw [same, greater_zero_finite]
    simpa [Exact.atMost] using le
  rcases conversion_cases factor source destination room with
    none | ⟨used, usable, uses, yields, moved⟩
  · rw [none]
    exact inLimits_none ..
  · rw [moved] at nonneg yield_le ⊢
    exact {
      nonneg_removed := nonneg.1
      nonneg_added := nonneg.2
      pos_iff := iff_of_true uses yields
      removed_le := fun positive => by
        subst usable
        exact convertible_atMost positive
      arrives := fun other => absurd rfl other
      added_le := fun other => absurd rfl other
      whole := fun _ => floor_cases yields
      yield_le := fun _ => yield_le }

end Transfer

theorem FlowKind.inLimits_transfer (kind : FlowKind)
    (evaluated source destination room : Exact) :
    (kind.transfer evaluated source destination room).InLimits kind source destination room := by
  cases kind with
  | rate => exact Transfer.inLimits_rate ..
  | conversion => exact Transfer.inLimits_conversion ..
  | leak => exact Transfer.inLimits_leak ..

/-- A rule moves something in its limits as soon as its formula has a quantity, and a flow, whose
destination has a maximum as well, lifts no finite level that is not negative above a finite one. -/
theorem Flow.transfer_inLimits :
    (∀ (rule : Rule) (look : String → Except Fault Exact) (evaluated : Exact),
      rule.formula.eval look = .ok evaluated →
        ∀ source destination room, ∃ moved,
          rule.transfer look source destination room = .ok moved ∧
          moved.InLimits rule.kind source destination room) ∧
    ∀ (flow : Flow) (destination : Stock) (look : String → Except Fault Exact) (evaluated : Exact)
      (most level : Rat), flow.rule.formula.eval look = .ok evaluated →
        destination.maximum.eval look = .ok (.finite most) → 0 ≤ level →
          ∀ source, ∃ moved added,
            flow.transfer destination look source (.finite level) = .ok moved ∧
            moved.added = .finite added ∧ 0 ≤ added ∧ level + added ≤ max most level := by
  refine ⟨fun rule look evaluated computed source destination room => ?_, ?_⟩
  · exact ⟨_, Rule.transfer_of_eval computed .., rule.kind.inLimits_transfer ..⟩
  · intro flow destination look evaluated most level computed bounded nonneg source
    obtain ⟨added, same, added_nonneg, fits⟩ :=
      flow.rule.kind.added_le evaluated source nonneg (most + -level)
    refine ⟨_, added, Flow.transfer_of_eval computed bounded .., same, added_nonneg, ?_⟩
    rcases le_max_iff.1 fits with none | some
    · exact le_max_of_le_right (by linarith)
    · exact le_max_of_le_left (by linarith)

/-- Even a boundless source is drained within the room. -/
theorem Flow.transfer_inLimits_boundless :
    (∃ moved, (⟨.leak, .value (.decimal "0.5")⟩ : Rule).transfer (fun _ => .ok Exact.nan) infinity
        (.finite 4) (.finite 10) = .ok moved ∧
      moved.InLimits .leak infinity (.finite 4) (.finite 10)) ∧
    ∃ moved added, (⟨"a", "b", ⟨.conversion, .value (.decimal "0.5")⟩⟩ : Flow).transfer
        { name := "b", maximum := .value (.whole "14") } (fun _ => .ok Exact.nan) infinity
        (.finite 4) = .ok moved ∧
      moved.added = .finite added ∧ 0 ≤ added ∧ (4 : Rat) + added ≤ max 14 4 :=
  ⟨Flow.transfer_inLimits.1 ⟨.leak, .value (.decimal "0.5")⟩ (fun _ => .ok .nan) (.finite (1 / 2))
      (by decide +kernel) infinity (.finite 4) (.finite 10),
    Flow.transfer_inLimits.2 ⟨"a", "b", ⟨.conversion, .value (.decimal "0.5")⟩⟩
      { name := "b", maximum := .value (.whole "14") } (fun _ => .ok .nan) (.finite (1 / 2)) 14 4
      (by decide +kernel) (by decide +kernel) (by decide) infinity⟩

end StockFlow
