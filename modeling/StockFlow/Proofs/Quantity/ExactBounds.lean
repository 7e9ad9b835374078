import Mathlib.Algebra.Order.Ring.Rat
import Mathlib.Tactic.Linarith
import StockFlow.Quantity.Exact

/-!
# Bounds of exact quantities

Comparisons with a rational number that what is no number passes (`NotAbove`, `NotBelow`), and what
the lesser and the greater of two quantities keep of them. Holding a quantity between zero and
something that is not above a bound makes it a number within the bound (`NotAbove.greater_zero`).
-/

namespace StockFlow

open Quantity

namespace Exact

@[simp] theorem zero_eq : (Quantity.zero : Exact) = .finite 0 := rfl

@[simp] theorem less_eq (x y : Exact) : Quantity.less x y = x.less y := rfl

@[simp] theorem atMost_eq (x y : Exact) : Quantity.atMost x y = x.atMost y := rfl

@[simp] theorem floor_eq (x : Exact) : Quantity.floor x = x.floor := rfl

@[simp] theorem add_eq (x y : Exact) : x + y = x.add y := rfl

@[simp] theorem sub_eq (x y : Exact) : x - y = x.add y.neg := rfl

@[simp] theorem mul_eq (x y : Exact) : x * y = x.mul y := rfl

@[simp] theorem div_eq (x y : Exact) : x / y = x.div y := rfl

@[simp] theorem add_zero (x : Exact) : x.add (.finite 0) = x := by
  cases x <;> simp [Exact.add]

theorem finite_ne_nan (x : Rat) : Exact.finite x ≠ .nan :=
  nofun

theorem isInfinite_finite (x : Rat) : isInfinite (.finite x : Exact) = false :=
  rfl

/-- Not above a bound; what is no number is above none. -/
def NotAbove (x : Exact) (bound : Rat) : Prop :=
  Quantity.less (.finite bound) x = false

/-- Not below another quantity; what is no number is neither below nor above any. -/
def NotBelow (x low : Exact) : Prop :=
  Quantity.less x low = false

/-- Zero or more, and a number. -/
def Nonneg (x : Exact) : Prop :=
  Quantity.atMost Quantity.zero x = true

variable {x y : Exact} {bound : Rat}

theorem notAbove_finite_iff {q : Rat} : NotAbove (.finite q) bound ↔ q ≤ bound := by
  simp [NotAbove, Exact.less]

theorem notBelow_finite_iff {q : Rat} : NotBelow (.finite q) (.finite bound) ↔ bound ≤ q := by
  simp [NotBelow, Exact.less]

theorem nonneg_finite_iff {q : Rat} : Nonneg (.finite q) ↔ 0 ≤ q := by
  simp [Nonneg, Exact.atMost]

theorem nonneg_cases (h : Nonneg x) : x = .infinite false ∨ ∃ q, x = .finite q ∧ 0 ≤ q := by
  cases x with
  | nan => cases h
  | infinite s =>
    cases s with
    | false => exact .inl rfl
    | true => cases h
  | finite q => exact .inr ⟨q, rfl, nonneg_finite_iff.1 h⟩

theorem nonneg_add (hx : Nonneg x) (hy : Nonneg y) : Nonneg (x + y) := by
  rcases nonneg_cases hx with rfl | ⟨p, rfl, hp⟩ <;> rcases nonneg_cases hy with rfl | ⟨q, rfl, hq⟩
  · rfl
  · rfl
  · rfl
  · exact nonneg_finite_iff.2 (add_nonneg hp hq)

theorem nonneg_of_pos (positive : Quantity.less Quantity.zero x = true) : Nonneg x := by
  cases x with
  | nan => cases positive
  | infinite s =>
    cases s with
    | false => rfl
    | true => cases positive
  | finite q =>
    have : 0 < q := by simpa [Exact.less] using positive
    exact nonneg_finite_iff.2 this.le

/-- A positive quantity that is not above a bound is a number. -/
theorem exists_finite_of_pos (positive : Quantity.less Quantity.zero x = true)
    (h : NotAbove x bound) : ∃ q, x = .finite q ∧ 0 < q ∧ q ≤ bound := by
  cases x with
  | nan => cases positive
  | infinite s =>
    cases s with
    | false => cases h
    | true => cases positive
  | finite q => exact ⟨q, rfl, by simpa [Exact.less] using positive, notAbove_finite_iff.1 h⟩

theorem NotAbove.lesser_left (h : NotAbove x bound) : NotAbove (lesser x y) bound := by
  unfold lesser
  split
  · rename_i less
    cases x <;> cases y <;> simp_all [NotAbove, Exact.less]
    linarith
  · exact h

theorem NotAbove.lesser_right (h : NotAbove y bound) (number : y ≠ .nan) :
    NotAbove (lesser x y) bound := by
  unfold lesser
  split
  · exact h
  · rename_i not_less
    cases x <;> cases y <;> simp_all [NotAbove, Exact.less]
    linarith

/-- Only a number can be below a bound that is not above zero. -/
theorem notBelow_cases {low : Exact} (nonpositive : NotBelow Quantity.zero low) :
    (∀ x, NotBelow x low) ∨ ∃ q ≤ 0, low = .finite q := by
  cases low with
  | nan => exact .inl fun x => by cases x <;> rfl
  | infinite s =>
    cases s with
    | false => cases nonpositive
    | true => exact .inl fun x => by cases x <;> simp [NotBelow, Exact.less]
  | finite q => exact .inr ⟨q, notBelow_finite_iff.1 nonpositive, rfl⟩

/-- What is taken from a number, if no more than it has, leaves it above what it was above and that
is not above zero. -/
theorem NotBelow.sub {low : Exact} (h : NotBelow x low) (nonpositive : NotBelow Quantity.zero low)
    (hy : Nonneg y) (small : ∀ p, x = .finite p → ∃ r, y = .finite r ∧ 0 ≤ r ∧ r ≤ max 0 p) :
    NotBelow (x - y) low := by
  rcases notBelow_cases nonpositive with all | ⟨q, negative, rfl⟩
  · exact all _
  cases x with
  | nan => rfl
  | infinite s =>
    cases s with
    | true => cases h
    | false => rcases nonneg_cases hy with rfl | ⟨r, rfl, -⟩ <;> rfl
  | finite p =>
    obtain ⟨r, rfl, pos, le⟩ := small p rfl
    refine notBelow_finite_iff.2 ?_
    rcases le_max_iff.1 le with none | part
    · have := notBelow_finite_iff.1 h
      linarith
    · linarith

theorem NotBelow.add {low : Exact} (h : NotBelow x low) (nonpositive : NotBelow Quantity.zero low)
    (hy : Nonneg y) : NotBelow (x + y) low := by
  rcases notBelow_cases nonpositive with all | ⟨q, -, rfl⟩
  · exact all _
  rcases nonneg_cases hy with rfl | ⟨r, rfl, pos⟩
  · cases x with
    | nan => rfl
    | infinite s => cases s <;> rfl
    | finite p => rfl
  · cases x with
    | nan => rfl
    | infinite s => exact h
    | finite p =>
      have := notBelow_finite_iff.1 h
      exact notBelow_finite_iff.2 (by linarith)

/-- The lesser of zero and anything is not above zero. -/
theorem notBelow_lesser_zero (x : Exact) : NotBelow Quantity.zero (lesser Quantity.zero x) := by
  unfold lesser
  split
  · rename_i less
    cases x <;> simp_all [NotBelow, Exact.less]
    linarith
  · exact notBelow_finite_iff.2 le_rfl

/-- A quantity is not below the lesser of zero and itself. -/
theorem notBelow_lesser_self (x : Exact) : NotBelow x (lesser Quantity.zero x) := by
  unfold lesser
  split
  · cases x with
    | nan => rfl
    | infinite s => cases s <;> rfl
    | finite q => exact notBelow_finite_iff.2 le_rfl
  · rename_i not_less
    exact eq_false_of_ne_true not_less

/-- The greater of zero and anything is zero or more. -/
theorem nonneg_greater_zero (x : Exact) : Nonneg (greater Quantity.zero x) := by
  unfold greater
  split
  · rename_i less
    cases x <;> simp_all [Nonneg, Exact.less, Exact.atMost]
    linarith
  · exact nonneg_finite_iff.2 le_rfl

theorem NotAbove.greater_zero (h : NotAbove x bound) :
    ∃ q, greater Quantity.zero x = .finite q ∧ 0 ≤ q ∧ q ≤ max 0 bound := by
  unfold greater
  split
  · rename_i positive
    obtain ⟨q, rfl, pos, le⟩ := exists_finite_of_pos positive h
    exact ⟨q, rfl, pos.le, le_max_of_le_right le⟩
  · exact ⟨0, rfl, le_rfl, le_max_left ..⟩

/-! ## The order of numbers -/

theorem atMost_refl (number : x ≠ .nan) : x.atMost x = true := by
  cases x with
  | nan => exact absurd rfl number
  | infinite s => cases s <;> rfl
  | finite q => simp [Exact.atMost]

theorem atMost_trans {z : Exact} (first : x.atMost y = true) (second : y.atMost z = true) :
    x.atMost z = true := by
  cases x <;> cases y <;> cases z <;> grind [Exact.atMost]

theorem atMost_of_less (below : x.less y = true) : x.atMost y = true := by
  cases x <;> cases y <;> grind [Exact.less, Exact.atMost]

theorem atMost_of_not_less (left : x ≠ .nan) (right : y ≠ .nan) (h : x.less y = false) :
    y.atMost x = true := by
  cases x <;> cases y <;> grind [Exact.less, Exact.atMost]

theorem less_of_less_of_atMost {z : Exact} (below : x.less y = true) (within : y.atMost z = true) :
    x.less z = true := by
  cases x <;> cases y <;> cases z <;> grind [Exact.less, Exact.atMost]

theorem ne_nan_of_less (below : x.less y = true) : y ≠ .nan := by
  rintro rfl
  cases x <;> cases below

theorem ne_nan_of_atMost (within : x.atMost y = true) : x ≠ .nan := by
  rintro rfl
  cases within

/-- What can be taken away without going below zero is no more than there is. -/
theorem atMost_of_nonneg_sub (enough : Nonneg (y - x)) : x.atMost y = true := by
  cases y with
  | nan => cases enough
  | infinite s =>
    cases s with
    | false =>
      cases x with
      | nan => cases enough
      | infinite t => cases t <;> rfl
      | finite q => rfl
    | true =>
      cases x with
      | nan => cases enough
      | infinite t => cases t <;> cases enough
      | finite q => cases enough
  | finite held =>
    cases x with
    | nan => cases enough
    | infinite t =>
      cases t with
      | false => cases enough
      | true => rfl
    | finite q =>
      have : 0 ≤ held + -q := by simpa [Nonneg, Exact.add, Exact.neg, Exact.atMost] using enough
      simp only [Exact.atMost, decide_eq_true_eq]
      linarith

theorem NotAbove.of_atMost (within : x.atMost (.finite bound) = true) : NotAbove x bound := by
  cases x <;> simp_all [NotAbove, Exact.less, Exact.atMost]

theorem exists_finite_of_atMost (nonneg : Nonneg x) (within : x.atMost (.finite bound) = true) :
    ∃ q, x = .finite q ∧ 0 ≤ q ∧ q ≤ bound := by
  rcases nonneg_cases nonneg with rfl | ⟨q, rfl, positive⟩
  · cases within
  · exact ⟨q, rfl, positive, by simpa [Exact.atMost] using within⟩

theorem lesser_finite (p q : Rat) :
    lesser (.finite p) (.finite q) = Exact.finite (min p q) := by
  rcases lt_or_ge q p with below | above
  · simp [lesser, Exact.less, below, min_eq_right below.le]
  · simp [lesser, Exact.less, not_lt.2 above, min_eq_left above]

theorem lesser_nan_left (y : Exact) : lesser .nan y = .nan := by
  cases y <;> rfl

theorem lesser_ne_nan (number : x ≠ .nan) : lesser x y ≠ .nan := by
  unfold lesser
  split
  · rename_i below
    rintro rfl
    cases below
  · exact number

theorem lesser_atMost_left (number : x ≠ .nan) : (lesser x y).atMost x = true := by
  unfold lesser
  split
  · rename_i below
    exact atMost_of_less below
  · exact atMost_refl number

theorem lesser_atMost_right (left : x ≠ .nan) (right : y ≠ .nan) :
    (lesser x y).atMost y = true := by
  unfold lesser
  split
  · exact atMost_refl right
  · rename_i not_below
    exact atMost_of_not_less right left (Bool.eq_false_iff.2 not_below)

/-- What is held at zero is positive just where it was so before, and then it is unchanged. -/
theorem pos_greater_zero (positive : Quantity.less Quantity.zero (greater Quantity.zero x) = true) :
    Quantity.less Quantity.zero x = true ∧ greater Quantity.zero x = x := by
  unfold greater at positive ⊢
  split
  · rename_i above
    exact ⟨above, rfl⟩
  · rename_i not_above
    rw [if_neg not_above] at positive
    exact absurd positive (by decide)

/-- Holding at zero keeps bounds, and makes zero of what is no number. -/
theorem greater_zero_atMost (within : x ≠ .nan → x.atMost y = true) :
    (greater Quantity.zero x).atMost (greater Quantity.zero y) = true := by
  by_cases positive : Quantity.less Quantity.zero x = true
  · have below := within (ne_nan_of_less positive)
    have above : Quantity.less Quantity.zero y = true := less_of_less_of_atMost positive below
    rw [greater, if_pos positive, greater, if_pos above]
    exact below
  · rw [greater, if_neg positive]
    exact nonneg_greater_zero y

theorem greater_zero_finite (q : Rat) :
    greater Quantity.zero (.finite q) = (.finite (max 0 q) : Exact) := by
  unfold greater
  rcases le_total q 0 with negative | positive
  · rw [max_eq_left negative, if_neg]
    · rfl
    · simpa [Exact.less] using negative
  · rw [max_eq_right positive]
    split
    · rfl
    · rename_i not_above
      rw [le_antisymm (by simpa [Exact.less] using not_above) positive]
      rfl

end Exact

end StockFlow
