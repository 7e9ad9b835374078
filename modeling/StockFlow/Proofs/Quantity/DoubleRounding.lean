import StockFlow.Proofs.Quantity.DoubleParts

/-!
# Rounding of doubles

An exact result is rounded in two steps that shift its mantissa to the right. Neither goes beyond
the greatest double where the exact result does not (`round_cases`), so such a result is not packed
as infinity (`parts_ofParts_ne_infinity`).
-/

namespace StockFlow.Number

open Float.Model.UnpackedFloat
open Float.Model (UnpackedFloat Format totalExponent)

/-! ## Shifting a mantissa -/

/-- Shifting to the right by `k` places divides, and what is divided without rest stays exact. -/
theorem shiftRight_exact (mantissa k : Nat) :
    ((⟨mantissa, false, false⟩ : ExtendedMantissa) >>> k).mantissa = mantissa / 2 ^ k ∧
      (2 ^ k ∣ mantissa →
        (⟨mantissa, false, false⟩ : ExtendedMantissa) >>> k = ⟨mantissa / 2 ^ k, false, false⟩) := by
  induction k with
  | zero => simp [HShiftRight.hShiftRight, Nat.repeat]
  | succ k ih =>
    obtain ⟨shifted, whole⟩ := ih
    have unfolded : (⟨mantissa, false, false⟩ : ExtendedMantissa) >>> (k + 1) =
        ((⟨mantissa, false, false⟩ : ExtendedMantissa) >>> k).shiftRightOne := rfl
    rw [unfolded]
    constructor
    · show _ / 2 = _
      rw [shifted, Nat.div_div_eq_div_mul, pow_succ]
    · intro divides
      rw [whole ((pow_dvd_pow 2 (Nat.le_succ k)).trans divides)]
      have last : mantissa / 2 ^ k % 2 = 0 := by
        rw [pow_succ] at divides
        exact Nat.mod_eq_zero_of_dvd
          ((Nat.dvd_div_iff_mul_dvd (Dvd.dvd.trans ⟨2, rfl⟩ divides)).2 divides)
      simp [ExtendedMantissa.shiftRightOne, last, Nat.div_div_eq_div_mul, pow_succ]

theorem le_roundedMantissa (em : ExtendedMantissa) : em.mantissa ≤ em.roundedMantissa := by
  obtain ⟨mantissa, roundBit, stickyBit⟩ := em
  cases roundBit <;> cases stickyBit <;>
    simp [ExtendedMantissa.roundedMantissa, ExtendedMantissa.accuracy, Accuracy.roundToNearestEven]

theorem roundedMantissa_le (em : ExtendedMantissa) : em.roundedMantissa ≤ em.mantissa + 1 := by
  obtain ⟨mantissa, roundBit, stickyBit⟩ := em
  cases roundBit <;> cases stickyBit <;>
    simp [ExtendedMantissa.roundedMantissa, ExtendedMantissa.accuracy, Accuracy.roundToNearestEven]
  omega

/-- Rounding does not go beyond a bound that keeps all its bits. -/
theorem roundedMantissa_shiftRight_le {mantissa k bound : Nat} (le : mantissa ≤ bound * 2 ^ k) :
    ((⟨mantissa, false, false⟩ : ExtendedMantissa) >>> k).roundedMantissa ≤ bound := by
  obtain ⟨shifted, whole⟩ := shiftRight_exact mantissa k
  rcases Nat.lt_or_eq_of_le le with below | rfl
  · refine (roundedMantissa_le _).trans ?_
    rw [shifted]
    exact Nat.div_lt_of_lt_mul (mul_comm bound _ ▸ below)
  · rw [whole (Nat.dvd_mul_left ..), Nat.mul_div_cancel _ (Nat.two_pow_pos k)]
    exact le_rfl

/-! ## The greatest double -/

/-- A mantissa at an exponent is at most that of the greatest double. -/
structure Fits (mantissa : Nat) (exponent : Int) : Prop where
  exponent_le : exponent ≤ 971
  mantissa_le : mantissa ≤ (2 ^ 53 - 1) * 2 ^ (971 - exponent).toNat

namespace Fits

variable {mantissa : Nat} {exponent : Int}

theorem of_lt (exponent_le : exponent ≤ 971) (mantissa_lt : mantissa < 2 ^ 53) :
    Fits mantissa exponent :=
  ⟨exponent_le, (Nat.le_sub_one_of_lt mantissa_lt).trans
    (Nat.le_mul_of_pos_right _ (Nat.two_pow_pos _))⟩

/-- The exponent that it is rounded at is at most that of the greatest double. -/
theorem targetExponent_le (fits : Fits mantissa exponent) :
    Format.binary64.targetExponent (totalExponent mantissa exponent) ≤ 971 := by
  obtain ⟨exponent_le, mantissa_le⟩ := fits
  have digits : mantissa.log2 < 53 + (971 - exponent).toNat := by
    rcases Nat.eq_zero_or_pos mantissa with rfl | positive
    · rw [Nat.log2_zero]
      omega
    · rw [Nat.log2_lt positive.ne', pow_add]
      exact mantissa_le.trans_lt (Nat.mul_lt_mul_of_pos_right (by decide) (Nat.two_pow_pos _))
  refine max_le ?_ (by decide)
  show mantissa.log2 + 1 + exponent - 53 ≤ 971
  omega

theorem mono {smaller : Nat} (fits : Fits mantissa exponent) (le : smaller ≤ mantissa) :
    Fits smaller exponent :=
  ⟨fits.exponent_le, le.trans fits.mantissa_le⟩

/-- It fits with any number of places more, too. -/
theorem shiftLeft (fits : Fits mantissa exponent) (k : Nat) :
    Fits (mantissa <<< k) (exponent - k) := by
  obtain ⟨exponent_le, mantissa_le⟩ := fits
  refine ⟨by omega, ?_⟩
  have places : (971 - (exponent - k)).toNat = (971 - exponent).toNat + k := by
    omega
  rw [Nat.shiftLeft_eq, places, pow_add, ← mul_assoc]
  exact Nat.mul_le_mul_right _ mantissa_le

/-- It still fits when it has been shifted and rounded. -/
theorem shift (fits : Fits mantissa exponent) :
    Fits (shiftToTargetExponent .binary64 mantissa exponent .exact).1.roundedMantissa
      (shiftToTargetExponent .binary64 mantissa exponent .exact).2 := by
  have target_le := fits.targetExponent_le
  obtain ⟨exponent_le, mantissa_le⟩ := fits
  unfold shiftToTargetExponent
  generalize Format.binary64.targetExponent (totalExponent mantissa exponent) = target at target_le
  refine ⟨?_, roundedMantissa_shiftRight_le ?_⟩
  · show exponent + (target - exponent).toNat ≤ 971
    omega
  · show mantissa ≤ _ * 2 ^ (971 - (exponent + (target - exponent).toNat)).toNat * _
    have places : (971 - exponent).toNat =
        (971 - (exponent + (target - exponent).toNat)).toNat + (target - exponent).toNat := by
      omega
    rwa [mul_assoc, ← pow_add, ← places]

end Fits

/-- A number is rounded to zero, or to a finite number that fits if it fits itself. -/
theorem round_cases (sign : Sign) (mantissa : Nat) (exponent : Int) :
    UnpackedFloat.round .binary64 sign mantissa exponent = .zero sign ∨
      ∃ rounded exponent' some, UnpackedFloat.round .binary64 sign mantissa exponent =
        .finite sign rounded exponent' some ∧ (Fits mantissa exponent → Fits rounded exponent') := by
  unfold UnpackedFloat.round roundWithAccuracy
  simp only
  split
  · exact .inl rfl
  · rename_i some
    refine .inr ⟨_, _, Nat.pos_of_ne_zero some, rfl, fun fits => ?_⟩
    have shifted := fits.shiftLeft (exponent -
      Format.binary64.targetExponent (totalExponent mantissa exponent)).toNat
    exact shifted.shift.shift.mono (le_roundedMantissa _)

/-! ## Bounded doubles -/

/-- Parts that are not infinite, and not too large either to be packed as a number. -/
def Bounded : UnpackedFloat → Prop
  | .infinity sign => sign = .negative
  | .finite sign mantissa exponent _ => sign = .positive → Fits mantissa exponent
  | .zero _ => True
  | .notANumber => True

theorem bounded_parts {x : Float} (bounded : x ≠ Quantity.infinity) : Bounded (parts x) := by
  have unpacked := unpacks_parts x
  cases same : parts x with
  | notANumber => trivial
  | zero sign => trivial
  | infinity sign =>
    cases sign with
    | negative => rfl
    | positive => exact absurd (parts_eq_infinity_iff.1 same) bounded
  | finite sign mantissa exponent some =>
    rw [same] at unpacked
    cases unpacked with
    | finite _ exponent_le mantissa_lt => exact fun _ => .of_lt exponent_le mantissa_lt

/-- What is bounded is not packed as infinity. -/
theorem parts_ofParts_ne_infinity {u : UnpackedFloat} (bounded : Bounded u) :
    parts (ofParts u) ≠ .infinity .positive := by
  cases u with
  | notANumber => exact nofun
  | infinity sign =>
    cases bounded
    exact nofun
  | zero sign => cases sign <;> exact nofun
  | finite sign mantissa exponent some =>
    intro same
    obtain ⟨keeps, overflows⟩ := pack_finite sign mantissa exponent some
    have unpacked := unpacks_parts (ofParts (.finite sign mantissa exponent some))
    rw [same] at unpacked
    cases unpacked with
    | infinity signed last _ =>
      have positive : sign = .positive := toBitVec_inj (keeps.symm.trans signed)
      exact (overflows last).2.not_ge (bounded positive).exponent_le

theorem bounded_round {sign : Sign} {mantissa : Nat} {exponent : Int}
    (fits : sign = .positive → Fits mantissa exponent) :
    Bounded (UnpackedFloat.round .binary64 sign mantissa exponent) := by
  rcases round_cases sign mantissa exponent with zero | ⟨rounded, exponent', some, finite, keeps⟩
  · rw [zero]
    trivial
  · rw [finite]
    exact fun positive => keeps (fits positive)

theorem bounded_normalize {mantissa exponent : Int}
    (fits : 0 < mantissa → Fits mantissa.toNat exponent) :
    Bounded (UnpackedFloat.normalize .binary64 mantissa exponent .positive) := by
  unfold UnpackedFloat.normalize
  split
  · exact bounded_round nofun
  · trivial
  · rename_i positive
    exact bounded_round fun _ => fits (Int.compare_eq_gt.1 positive)

end StockFlow.Number
