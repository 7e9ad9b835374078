import StockFlow.Proofs.Rule.TransferBounds
import StockFlow.Quantity.Double

/-!
# The level of a destination

The room that a rule is told is what is left of the maximum, the level of the destination being
taken off already. Rates and leaks go by that room alone. A conversion takes the level off once
more, so between finite quantities it goes by the room less the level (`Rule.transfer_level`): it
moves what it would move into an empty destination with that much room, less than fits unless the
whole parts happen to agree, and nothing at all into a destination that is half full.
-/

namespace StockFlow

open Quantity

namespace Transfer

/-- What a conversion moves that uses up `used`: the whole part of the yield, if there is one. -/
def converted (factor used : Rat) : Transfer Exact :=
  if 0 < used ∧ 0 < (used * factor).floor then
    ⟨.finite used, .finite (used * factor).floor⟩
  else none

variable {factor : Rat}

theorem converted_eq_none_iff {used : Rat} :
    converted factor used = none ↔ ¬ (0 < used ∧ 0 < (used * factor).floor) := by
  unfold converted
  split
  · rename_i moves
    refine iff_of_false (fun same => ?_) (not_not_intro moves)
    exact moves.1.ne' (Exact.finite.inj (congrArg removed same))
  · rename_i stays
    exact iff_of_true rfl stays

/-- If nothing comes of using up some amount, nothing comes of less. -/
theorem converted_eq_none_of_le (positive : 0 < factor) {less more : Rat} (le : less ≤ more)
    (stays : converted factor more = none) : converted factor less = none := by
  rw [converted_eq_none_iff] at stays ⊢
  rintro ⟨uses, yields⟩
  have scaled : less * factor ≤ more * factor := mul_le_mul_of_nonneg_right le positive.le
  exact stays ⟨uses.trans_le le, yields.trans_le (Rat.floor_monotone scaled)⟩

/-- Of two amounts that may be used up, the same comes just if they agree, or neither is enough. -/
theorem converted_eq_iff (positive : 0 < factor) {less more : Rat} (le : less ≤ more) :
    converted factor less = converted factor more ↔
      converted factor more = none ∨ less = more := by
  constructor
  · intro same
    by_cases stays : converted factor more = none
    · exact .inl stays
    · have moves := not_not.1 (converted_eq_none_iff.not.1 stays)
      have moves_less := not_not.1 (converted_eq_none_iff.not.1 (same ▸ stays))
      rw [converted, converted, if_pos moves, if_pos moves_less] at same
      exact .inr (Exact.finite.inj (congrArg removed same))
  · rintro (stays | rfl)
    · rw [stays, converted_eq_none_of_le positive le stays]
    · rfl

theorem convertible_finite (nonzero : factor ≠ 0) (amount level room : Rat) :
    convertible (.finite factor) (.finite amount) (.finite level) (.finite room) =
      Exact.finite (min amount ((room - level) / factor).floor) := by
  have quotient : ((.finite room : Exact) - .finite level) / .finite factor =
      .finite ((room - level) / factor) := by
    simp [Exact.div, Exact.neg, Exact.add, nonzero, sub_eq_add_neg]
  simp only [convertible, Exact.isInfinite_finite, Bool.or_self, Bool.false_eq_true, if_false,
    quotient]
  exact Exact.lesser_finite ..

/-- Between finite quantities a conversion may use up what the room less the level is worth. -/
theorem conversion_finite (nonzero : factor ≠ 0) (amount level room : Rat) :
    Transfer.conversion (.finite factor) (.finite amount) (.finite level) (.finite room) =
      converted factor (min amount ((room - level) / factor).floor) := by
  simp only [Transfer.conversion, convertible_finite nonzero, converted, ite_and]
  simp [Exact.less, Exact.mul, Exact.floor]

/-- A conversion goes by the difference of room and level. -/
theorem conversion_of_sub_eq {α : Type} [Quantity α] {level room level' room' : α}
    (finite : isInfinite level = false ∧ isInfinite room = false)
    (finite' : isInfinite level' = false ∧ isInfinite room' = false)
    (same : room - level = room' - level') (factor source : α) :
    Transfer.conversion factor source level room =
      Transfer.conversion factor source level' room' := by
  have usable : convertible factor source level room = convertible factor source level' room' := by
    simp only [convertible, finite, finite', Bool.or_self, Bool.false_eq_true, if_false, same]
  simp only [Transfer.conversion, usable]

/-- Nothing is converted into a level that is as high as the room. -/
theorem conversion_eq_none {level room : Rat} (full : room ≤ level) (factor source : Exact) :
    Transfer.conversion factor source (.finite level) (.finite room) = none := by
  rcases conversion_cases factor source (.finite level) (.finite room) with
    stays | ⟨used, usable, uses, yields, -⟩
  · exact stays
  · obtain ⟨a, whole, -, le⟩ : ∃ a, floor (used * factor) = .finite a ∧ 0 ≤ a ∧
        a ≤ room + -level := yield_le usable uses yields
    rw [whole] at yields
    have : 0 < a := of_decide_eq_true yields
    linarith

end Transfer

namespace Rule

variable {rule : Rule}

/-- Only a conversion looks at the level. -/
theorem transfer_of_ne_conversion {α : Type} [Quantity α] (other : rule.kind ≠ .conversion)
    (look : String → Except Fault α) (source level level' room : α) :
    rule.transfer look source level room = rule.transfer look source level' room := by
  have same : ∀ evaluated, rule.kind.transfer evaluated source level room =
      rule.kind.transfer evaluated source level' room := by
    intro evaluated
    cases kind : rule.kind with
    | conversion => exact absurd kind other
    | rate => rfl
    | leak => rfl
  simp only [transfer, same]

theorem transfer_of_sub_eq {α : Type} [Quantity α] (converts : rule.kind = .conversion)
    {level room level' room' : α} (finite : isInfinite level = false ∧ isInfinite room = false)
    (finite' : isInfinite level' = false ∧ isInfinite room' = false)
    (same : room - level = room' - level') (look : String → Except Fault α) (source : α) :
    rule.transfer look source level room = rule.transfer look source level' room' := by
  simp only [transfer, converts, FlowKind.transfer, Transfer.conversion_of_sub_eq finite finite' same]

variable {look : String → Except Fault Exact} {factor : Rat}

theorem transfer_conversion (converts : rule.kind = .conversion)
    (computed : rule.formula.eval look = .ok (.finite factor)) (nonzero : factor ≠ 0)
    (amount level room : Rat) :
    rule.transfer look (.finite amount) (.finite level) (.finite room) =
      .ok (.converted factor (min amount ((room - level) / factor).floor)) := by
  rw [transfer_of_eval computed, converts]
  exact congrArg Except.ok (Transfer.conversion_finite nonzero ..)

/-- A level makes no difference just if nothing would move without it, or it is lost in rounding. -/
theorem transfer_conversion_eq_iff (converts : rule.kind = .conversion)
    (computed : rule.formula.eval look = .ok (.finite factor)) (positive : 0 < factor)
    {level : Rat} (nonneg : 0 ≤ level) (amount room : Rat) :
    rule.transfer look (.finite amount) (.finite level) (.finite room) =
        rule.transfer look (.finite amount) (.finite 0) (.finite room) ↔
      .converted factor (min amount (room / factor).floor) = Transfer.none ∨
        min amount ((room - level) / factor).floor = min amount (room / factor).floor := by
  have short : (room - level) / factor ≤ room / factor :=
    div_le_div_of_nonneg_right (by linarith) positive.le
  have le : min amount ((room - level) / factor).floor ≤ min amount (room / factor).floor :=
    min_le_min_left amount (Rat.intCast_le_intCast.2 (Rat.floor_monotone short))
  rw [transfer_conversion converts computed positive.ne',
    transfer_conversion converts computed positive.ne', sub_zero, Except.ok.injEq]
  exact Transfer.converted_eq_iff positive le

end Rule

/-- A conversion moves nothing to where half of a finite maximum is reached. -/
theorem Flow.transfer_half_full {flow : Flow} {destination : Stock}
    {look : String → Except Fault Exact} {evaluated : Exact} {most level : Rat}
    (converts : flow.rule.kind = .conversion) (computed : flow.rule.formula.eval look = .ok evaluated)
    (bounded : destination.maximum.eval look = .ok (.finite most)) (half : most ≤ 2 * level)
    (source : Exact) : flow.transfer destination look source (.finite level) = .ok .none := by
  rw [Flow.transfer_of_eval computed bounded, converts]
  exact congrArg Except.ok (Transfer.conversion_eq_none (by linarith) evaluated source)

/-- A rate or a leak moves the same at every level of the destination, the room being the same. A
conversion goes by the room less the level: between finite quantities it moves as much as into an
empty destination with the same room just if nothing would move there or the level is lost in
rounding, and nothing as soon as half of a finite maximum is reached. -/
theorem Rule.transfer_level (rule : Rule) :
    (rule.kind ≠ .conversion → ∀ (α : Type) [Quantity α] (look : String → Except Fault α)
      source level level' room,
        rule.transfer look source level room = rule.transfer look source level' room) ∧
    (rule.kind = .conversion →
      (∀ (α : Type) [Quantity α] (look : String → Except Fault α) source level room level' room',
        isInfinite level = false ∧ isInfinite room = false →
        isInfinite level' = false ∧ isInfinite room' = false → room - level = room' - level' →
          rule.transfer look source level room = rule.transfer look source level' room') ∧
      (∀ (look : String → Except Fault Exact) (factor amount level room : Rat),
        rule.formula.eval look = .ok (.finite factor) → 0 < factor → 0 ≤ level →
          rule.transfer look (.finite amount) (.finite level) (.finite room) =
            .ok (.converted factor (min amount ((room - level) / factor).floor)) ∧
          (rule.transfer look (.finite amount) (.finite level) (.finite room) =
              rule.transfer look (.finite amount) (.finite 0) (.finite room) ↔
            .converted factor (min amount (room / factor).floor) = Transfer.none ∨
            min amount ((room - level) / factor).floor = min amount (room / factor).floor)) ∧
      ∀ (flow : Flow) (destination : Stock) (look : String → Except Fault Exact) evaluated most level,
        flow.rule = rule → rule.formula.eval look = .ok evaluated →
        destination.maximum.eval look = .ok (.finite most) → most ≤ 2 * level →
          ∀ source, flow.transfer destination look source (.finite level) = .ok .none) := by
  refine ⟨fun other _ _ => transfer_of_ne_conversion other, fun converts => ⟨?_, ?_, ?_⟩⟩
  · exact fun _ _ look source _ _ _ _ finite finite' same =>
      transfer_of_sub_eq converts finite finite' same look source
  · intro look factor amount level room computed positive nonneg
    exact ⟨transfer_conversion converts computed positive.ne' ..,
      transfer_conversion_eq_iff converts computed positive nonneg ..⟩
  · rintro flow destination look evaluated most level rfl computed bounded half
    exact Flow.transfer_half_full converts computed bounded half

/-- At a level of four a rate fills a room of ten as it does at none, and a conversion brings six,
as into a room of six. At a level of five one into a stock that holds up to ten brings nothing. -/
theorem Rule.transfer_level_filling :
    (⟨.rate, .value (.whole "30")⟩ : Rule).transfer (fun _ => .ok Exact.nan) (.finite 100)
        (.finite 4) (.finite 10) = .ok ⟨.finite 10, .finite 10⟩ ∧
      (⟨.conversion, .value (.decimal "0.5")⟩ : Rule).transfer (fun _ => .ok Exact.nan)
        (.finite 100) (.finite 4) (.finite 10) = .ok ⟨.finite 12, .finite 6⟩ ∧
      (⟨.conversion, .value (.decimal "0.5")⟩ : Rule).transfer (fun _ => .ok Exact.nan)
        (.finite 100) (.finite 0) (.finite 6) = .ok ⟨.finite 12, .finite 6⟩ ∧
      (⟨"a", "b", ⟨.conversion, .value (.decimal "0.5")⟩⟩ : Flow).transfer
        { name := "b", maximum := .value (.whole "10") } (fun _ => .ok Exact.nan) infinity
        (.finite 5) = .ok .none := by
  have filled := (Rule.transfer_level ⟨.rate, .value (.whole "30")⟩).1 (by decide) Exact
    (fun _ => .ok .nan) (.finite 100) (.finite 4) (.finite 0) (.finite 10)
  obtain ⟨shifted, sized, stops⟩ :=
    (Rule.transfer_level ⟨.conversion, .value (.decimal "0.5")⟩).2 rfl
  obtain ⟨moves, -⟩ := sized (fun _ => .ok Exact.nan) (1 / 2) 100 4 10 (by decide +kernel)
    (by decide +kernel) (by decide +kernel)
  have same := shifted Exact (fun _ => .ok .nan) (.finite 100) (.finite 4) (.finite 10) (.finite 0)
    (.finite 6) (by decide +kernel) (by decide +kernel) (by decide +kernel)
  refine ⟨filled.trans (by decide +kernel), moves.trans (by decide +kernel),
    same.symm.trans (moves.trans (by decide +kernel)), ?_⟩
  exact stops ⟨"a", "b", ⟨.conversion, .value (.decimal "0.5")⟩⟩ _ _ (.finite (1 / 2)) 10 5 rfl
    (by decide +kernel) (by decide +kernel) (by decide +kernel) infinity

/-- The room left is not all that matters: at a level of four less is converted than at none. -/
theorem Rule.not_transfer_room :
    ¬ ∀ (rule : Rule) (look : String → Except Fault Float) (source level room : Float),
      isInfinite level = false → isInfinite room = false → atMost zero level = true →
      atMost zero room = true →
        rule.transfer look source level room = rule.transfer look source zero room := by
  intro always
  have same := always ⟨.conversion, .value (.decimal "0.5")⟩ (fun _ => .ok 0) 100 4 10
    (by decide +kernel) (by decide +kernel) (by decide +kernel) (by decide +kernel)
  exact absurd same (by decide +kernel)

end StockFlow
