import StockFlow.Proofs.Quantity.DoubleRounding
import StockFlow.Proofs.Quantity.SpecialValues

/-!
# Special values of doubles

Doubles obey the laws of the special values, each of which is shown on the parts of doubles: what is
packed with a positive sign is zero or more (`nonneg_ofParts`), and what is taken away leaves nothing
that would be packed as infinity (`bounded_sub`).
-/

namespace StockFlow.Number

open Float.Model.UnpackedFloat
open Float.Model (UnpackedFloat Format)

/-! ## Comparisons -/

theorem less_eq (x y : Float) : Quantity.less x y = (parts x).lt (parts y) := by
  show decide (decide ((parts x).lt (parts y) = true) = true) = _
  rw [Bool.decide_eq_true, Bool.decide_eq_true]

theorem atMost_eq (x y : Float) : Quantity.atMost x y = (parts x).le (parts y) := by
  show decide (decide ((parts x).le (parts y) = true) = true) = _
  rw [Bool.decide_eq_true, Bool.decide_eq_true]

theorem infinity_le_iff (u : UnpackedFloat) :
    (UnpackedFloat.infinity .positive).le u = true ↔ u = .infinity .positive := by
  cases u with
  | notANumber => exact ⟨nofun, nofun⟩
  | infinity sign =>
    cases sign with
    | negative => exact ⟨nofun, nofun⟩
    | positive => exact ⟨fun _ => rfl, fun _ => rfl⟩
  | zero sign => exact ⟨nofun, nofun⟩
  | finite sign mantissa exponent some => exact ⟨nofun, nofun⟩

theorem le_self_eq_false_iff (u : UnpackedFloat) : u.le u = false ↔ u = .notANumber := by
  cases u with
  | notANumber => exact ⟨fun _ => rfl, fun _ => rfl⟩
  | infinity sign => cases sign <;> exact ⟨nofun, nofun⟩
  | zero sign => exact ⟨nofun, nofun⟩
  | finite sign mantissa exponent some =>
    have reflexive : (UnpackedFloat.finite sign mantissa exponent some).le
        (.finite sign mantissa exponent some) = true := by
      cases sign <;> simp [UnpackedFloat.le, UnpackedFloat.compare]
    rw [reflexive]
    exact ⟨nofun, nofun⟩

theorem lt_nan (u : UnpackedFloat) : u.lt .notANumber = false := by
  cases u <;> rfl

theorem le_nan (u : UnpackedFloat) : u.le .notANumber = false := by
  cases u <;> rfl

theorem infinity_lt (u : UnpackedFloat) : (UnpackedFloat.infinity .positive).lt u = false := by
  cases u with
  | notANumber => rfl
  | infinity sign => cases sign <;> rfl
  | zero sign => rfl
  | finite sign mantissa exponent some => rfl

theorem lt_infinity {u : UnpackedFloat} (bounded : u ≠ .infinity .positive)
    (number : u ≠ .notANumber) : u.lt (.infinity .positive) = true := by
  cases u with
  | notANumber => exact absurd rfl number
  | infinity sign =>
    cases sign with
    | negative => rfl
    | positive => exact absurd rfl bounded
  | zero sign => rfl
  | finite sign mantissa exponent some => cases sign <;> rfl

/-- Parts of something that is zero or more. -/
def Nonneg (u : UnpackedFloat) : Prop :=
  (UnpackedFloat.zero .positive).le u = true

theorem atMost_zero_iff {x : Float} : Quantity.atMost Quantity.zero x = true ↔ Nonneg (parts x) := by
  rw [atMost_eq, parts_zero, Nonneg]

/-- Packing keeps what is zero or more. -/
theorem nonneg_ofParts {u : UnpackedFloat} (nonneg : Nonneg u) : Nonneg (parts (ofParts u)) := by
  cases u with
  | notANumber => cases nonneg
  | infinity sign =>
    cases sign with
    | negative => cases nonneg
    | positive => rfl
  | zero sign => cases sign <;> rfl
  | finite sign mantissa exponent some =>
    cases sign with
    | negative => cases nonneg
    | positive =>
      obtain ⟨keeps, overflows⟩ := pack_finite .positive mantissa exponent some
      have unpacked := unpacks_parts (ofParts (.finite .positive mantissa exponent some))
      generalize parts (ofParts (.finite .positive mantissa exponent some)) = v at unpacked ⊢
      cases unpacked with
      | infinity signed _ _ =>
        obtain rfl := toBitVec_inj (signed.symm.trans keeps)
        rfl
      | notANumber last something => exact absurd (overflows last).1 something
      | zero _ => rfl
      | finite signed _ _ _ =>
        obtain rfl := toBitVec_inj (signed.symm.trans keeps)
        rfl

theorem nonneg_of_pos {u : UnpackedFloat} (positive : (UnpackedFloat.zero .positive).lt u = true) :
    Nonneg u := by
  cases u with
  | notANumber => cases positive
  | infinity sign =>
    cases sign with
    | negative => cases positive
    | positive => rfl
  | zero sign => rfl
  | finite sign mantissa exponent some =>
    cases sign with
    | negative => cases positive
    | positive => rfl

/-! ## Operations -/

theorem infinity_sub {u : UnpackedFloat} (bounded : u ≠ .infinity .positive)
    (number : u ≠ .notANumber) : sub .binary64 (.infinity .positive) u = .infinity .positive := by
  cases u with
  | notANumber => exact absurd rfl number
  | infinity sign =>
    cases sign with
    | negative => rfl
    | positive => exact absurd rfl bounded
  | zero sign => rfl
  | finite sign mantissa exponent some => rfl

theorem infinity_add {u : UnpackedFloat} (nonneg : Nonneg u) :
    add .binary64 (.infinity .positive) u = .infinity .positive := by
  cases u with
  | notANumber => cases nonneg
  | infinity sign =>
    cases sign with
    | negative => cases nonneg
    | positive => rfl
  | zero sign => rfl
  | finite sign mantissa exponent some => rfl

/-- An operator on parts. -/
def applyParts : Spec.Operator → UnpackedFloat → UnpackedFloat → UnpackedFloat
  | .plus => add .binary64
  | .minus => sub .binary64
  | .times => mul .binary64
  | .divide => div .binary64

theorem apply_eq (op : Spec.Operator) (x y : Float) :
    op.apply x y = ofParts (applyParts op (parts x) (parts y)) := by
  cases op <;> rfl

theorem applyParts_nan (op : Spec.Operator) (u : UnpackedFloat) :
    applyParts op .notANumber u = .notANumber ∧ applyParts op u .notANumber = .notANumber := by
  cases op <;> cases u <;> exact ⟨rfl, rfl⟩

theorem nonneg_round (mantissa : Nat) (exponent : Int) :
    Nonneg (UnpackedFloat.round .binary64 .positive mantissa exponent) := by
  rcases round_cases .positive mantissa exponent with zero | ⟨_, _, _, finite, -⟩
  · rw [zero]
    rfl
  · rw [finite]
    rfl

theorem nonneg_normalize {mantissa : Int} (nonneg : 0 ≤ mantissa) (exponent : Int) :
    Nonneg (UnpackedFloat.normalize .binary64 mantissa exponent .positive) := by
  unfold UnpackedFloat.normalize
  split
  · rename_i below
    exact absurd nonneg (Int.not_le.2 (Int.compare_eq_lt.1 below))
  · rfl
  · exact nonneg_round ..

theorem nonneg_add {u v : UnpackedFloat} (left : Nonneg u) (right : Nonneg v) :
    Nonneg (add .binary64 u v) := by
  cases u with
  | notANumber => cases left
  | infinity sign =>
    cases sign with
    | negative => cases left
    | positive =>
      cases v with
      | notANumber => cases right
      | infinity sign => cases sign <;> trivial
      | zero sign => rfl
      | finite sign mantissa exponent some => rfl
  | zero sign =>
    cases v with
    | notANumber => cases right
    | infinity sign => exact right
    | zero sign' => cases sign <;> cases sign' <;> rfl
    | finite sign mantissa exponent some => exact right
  | finite sign mantissa exponent some =>
    cases sign with
    | negative => cases left
    | positive =>
      cases v with
      | notANumber => cases right
      | infinity sign => exact right
      | zero sign => rfl
      | finite sign mantissa' exponent' some' =>
        cases sign with
        | negative => cases right
        | positive =>
          exact nonneg_normalize (Int.add_nonneg (Int.natCast_nonneg _) (Int.natCast_nonneg _)) _

/-- A difference is above zero only for something above zero, and is at most that. -/
theorem pos_of_sub_pos {sign : Sign} {mantissa removed : Nat}
    (positive : 0 < sign.apply mantissa - Sign.positive.apply removed) :
    sign = .positive ∧ (sign.apply mantissa - Sign.positive.apply removed).toNat ≤ mantissa := by
  cases sign with
  | negative =>
    simp only [Sign.apply] at positive
    omega
  | positive =>
    refine ⟨rfl, ?_⟩
    simp only [Sign.apply]
    omega

/-- Taking away leaves what is bounded bounded. -/
theorem bounded_sub {u v : UnpackedFloat} (bounded : Bounded u) (nonneg : Nonneg v) :
    Bounded (sub .binary64 u v) := by
  cases v with
  | notANumber => cases nonneg
  | infinity sign =>
    cases sign with
    | negative => cases nonneg
    | positive =>
      cases u with
      | notANumber => trivial
      | infinity sign => 
        cases bounded
        rfl
      | zero sign => rfl
      | finite sign mantissa exponent some => rfl
  | zero sign =>
    cases u with
    | notANumber => trivial
    | infinity sign => exact bounded
    | zero sign' => cases sign <;> cases sign' <;> trivial
    | finite sign mantissa exponent some => exact bounded
  | finite sign mantissa exponent some =>
    cases sign with
    | negative => cases nonneg
    | positive =>
      cases u with
      | notANumber => trivial
      | infinity sign => exact bounded
      | zero sign => exact nofun
      | finite sign mantissa' exponent' some' =>
        refine bounded_normalize fun positive => ?_
        obtain ⟨rfl, smaller⟩ := pos_of_sub_pos positive
        have lowered :=
          ((bounded rfl).shiftLeft (exponent' - min exponent' exponent).toNat).mono smaller
        rwa [show exponent' - ((exponent' - min exponent' exponent).toNat : Int) =
          min exponent' exponent by omega] at lowered

end StockFlow.Number

namespace StockFlow

open Number Float.Model

instance : Quantity.SpecialValues Float where
  isTop_iff x := by
    rw [← parts_eq_infinity_iff, Quantity.isTop, Number.atMost_eq, parts_infinity]
    exact infinity_le_iff _
  isNaN_iff x := by
    rw [← parts_eq_nan_iff, Quantity.isNaN, Number.atMost_eq, Bool.not_eq_true']
    exact le_self_eq_false_iff _
  infinity_ne_nan := by decide +kernel
  zero_ne_infinity := by decide +kernel
  zero_ne_nan := by decide +kernel
  ofWhole?_zero := by decide +kernel
  apply_nan op x := by
    rw [apply_eq, apply_eq, parts_nan, (applyParts_nan op _).1, (applyParts_nan op _).2, nan_eq]
    exact ⟨rfl, rfl⟩
  less_nan x := by
    rw [Number.less_eq, Number.less_eq, parts_nan]
    exact ⟨rfl, lt_nan _⟩
  atMost_nan x := by
    rw [Number.atMost_eq, parts_nan]
    exact le_nan _
  atMost_zero_zero := by decide +kernel
  nonneg_of_pos positive := by
    rw [Number.less_eq, parts_zero] at positive
    exact atMost_zero_iff.2 (Number.nonneg_of_pos positive)
  less_infinity bounded number := by
    rw [Number.less_eq, parts_infinity]
    exact lt_infinity (mt parts_eq_infinity_iff.1 bounded) (mt parts_eq_nan_iff.1 number)
  infinity_not_less x := by
    rw [Number.less_eq, parts_infinity]
    exact infinity_lt _
  infinity_sub {x} bounded number := by
    show ofParts (UnpackedFloat.sub .binary64 (parts Quantity.infinity) (parts x)) = _
    rw [parts_infinity, infinity_eq, Number.infinity_sub (mt parts_eq_infinity_iff.1 bounded)
      (mt parts_eq_nan_iff.1 number)]
  infinity_sub_infinity := by decide +kernel
  sub_ne_infinity {x y} bounded nonneg := by
    refine mt parts_eq_infinity_iff.2 (parts_ofParts_ne_infinity ?_)
    exact bounded_sub (bounded_parts bounded) (atMost_zero_iff.1 nonneg)
  infinity_add {x} nonneg := by
    show ofParts (UnpackedFloat.add .binary64 (parts Quantity.infinity) (parts x)) = _
    rw [parts_infinity, infinity_eq, Number.infinity_add (atMost_zero_iff.1 nonneg)]
  add_nonneg left right :=
    atMost_zero_iff.2 (nonneg_ofParts (nonneg_add (atMost_zero_iff.1 left) (atMost_zero_iff.1 right)))

end StockFlow
