import Mathlib
import StockFlow.Proofs.Number.Shortest

/-!
# Decimals as doubles

Numbers far outside the range of doubles are not worked out but cut off, by the number of their
digits. No number that is rounded to a positive finite double is cut off, so a decimal in the stretch
of a double is read as that double however it is split into digits and a power of ten
(`meaning_ofDecimal`).
-/

namespace StockFlow.Number

/-! ## Sizes -/

theorem length_toString (n : ℕ) : (toString n).length = digitCount n := by
  rw [Nat.toString_eq_ofList_toDigits, String.length_ofList]
  rfl

/-- A decimal lies between the powers of ten of its size. -/
theorem decimal_bounds {n : ℕ} (some : 0 < n) (e : ℤ) :
    (10 : ℚ) ^ (digitCount n + e - 1) ≤ n * 10 ^ e ∧
      (n : ℚ) * 10 ^ e < 10 ^ (digitCount n + e) := by
  have ten : (10 : ℚ) ≠ 0 := by norm_num
  have power : (0 : ℚ) < 10 ^ e := by positivity
  constructor
  · have low : ((10 ^ (digitCount n - 1) : ℕ) : ℚ) ≤ n := by exact_mod_cast pow_digitCount_le some
    have exponent : (digitCount n : ℤ) + e - 1 = ((digitCount n - 1 : ℕ) : ℤ) + e := by
      have count := digitCount_pos n
      omega
    rw [exponent, zpow_add₀ ten, zpow_natCast]
    push_cast at low
    exact mul_le_mul_of_nonneg_right low power.le
  · have high : (n : ℚ) < ((10 ^ digitCount n : ℕ) : ℚ) := by exact_mod_cast lt_pow_digitCount n
    rw [zpow_add₀ ten, zpow_natCast]
    push_cast at high
    exact mul_lt_mul_of_pos_right high power

theorem RoundsTo.pos {v : ℚ} {m : ℕ} {q : ℤ} (rounds : RoundsTo v m q) (positive : 0 < m) :
    0 < v := by
  have gap : (quartersBelow m q : ℚ) ≤ 2 := by exact_mod_cast quartersBelow_le m q
  have at_least : (1 : ℚ) ≤ m := by exact_mod_cast positive
  have scaled : 0 < v / 2 ^ q := by linarith [rounds.low]
  exact (div_pos_iff_of_pos_right (by positivity)).1 scaled

theorem shortest_pos {m : ℕ} {q : ℤ} (positive : 0 < m) (canonical : IsCanonical m q) :
    0 < (shortest m q).digits := by
  have value := (roundsTo_shortest positive canonical).pos positive
  refine Nat.pos_of_ne_zero fun none => value.ne' ?_
  rw [Decimal.value, none, Nat.cast_zero, zero_mul]

/-- What is rounded to a positive double lies between half the least and the end of the greatest. -/
theorem RoundsTo.bounds {v : ℚ} {m : ℕ} {q : ℤ} (rounds : RoundsTo v m q) (positive : 0 < m)
    (canonical : IsCanonical m q) : (2 : ℚ) ^ (-1075 : ℤ) ≤ v ∧ v ≤ 2 ^ (1024 : ℤ) := by
  obtain ⟨low, high, -⟩ := rounds
  have power : (0 : ℚ) < 2 ^ q := by positivity
  have gap : (quartersBelow m q : ℚ) ≤ 2 := by exact_mod_cast quartersBelow_le m q
  have at_least : (1 : ℚ) ≤ m := by exact_mod_cast positive
  have at_most : (m : ℚ) + 1 ≤ 2 * hiddenBit := by exact_mod_cast canonical.lt
  constructor
  · calc (2 : ℚ) ^ (-1075 : ℤ) = 1 / 2 * 2 ^ (-1074 : ℤ) := by
          rw [show (-1075 : ℤ) = -1 + -1074 from rfl, zpow_add₀ two_ne_zero]
          norm_num
      _ ≤ 1 / 2 * 2 ^ q :=
          mul_le_mul_of_nonneg_left (zpow_le_zpow_right₀ one_le_two canonical.least) (by norm_num)
      _ ≤ v := (le_div_iff₀ power).1 (by linarith)
  · calc v ≤ 2 * hiddenBit * 2 ^ q := (div_le_iff₀ power).1 (by linarith)
      _ ≤ 2 * hiddenBit * 2 ^ (971 : ℤ) :=
          mul_le_mul_of_nonneg_left (zpow_le_zpow_right₀ one_le_two canonical.most) (by positivity)
      _ = 2 ^ (1024 : ℤ) := by
          rw [show (1024 : ℤ) = 53 + 971 from rfl, zpow_add₀ two_ne_zero, hiddenBit_eq]
          norm_num

theorem two_pow_lt_ten_pow : (2 : ℕ) ^ 1075 < 10 ^ 400 := by
  decide +kernel

/-! ## Decimals -/

theorem ofDecimal_zero (e : ℤ) : ofDecimal 0 e = 0.0 :=
  rfl

/-- A decimal of moderate size is worked out. -/
theorem ofDecimal_eq_nearest {n : ℕ} {e : ℤ} (some : 0 < n) (least : -400 ≤ digitCount n + e)
    (most : digitCount n + e ≤ 400) :
    ofDecimal n e = nearest (n * 10 ^ e.toNat) (10 ^ (-e).toNat) := by
  unfold ofDecimal
  rw [length_toString, if_neg, if_neg (by omega)]
  · rfl
  · rw [Bool.or_eq_true, decide_eq_true_eq, decide_eq_true_eq]
    omega

/-- The fraction that a decimal stands for. -/
theorem decimal_eq_div (n : ℕ) (e : ℤ) :
    ((n * 10 ^ e.toNat : ℕ) : ℚ) / ((10 ^ (-e).toNat : ℕ) : ℚ) = n * 10 ^ e := by
  rw [zpow_eq_div (by norm_num) e]
  push_cast
  rw [mul_div_assoc]

/-- A decimal in the stretch of a double is read as that double. -/
theorem meaning_ofDecimal {n m : ℕ} {e q : ℤ} (some : 0 < n) (positive : 0 < m)
    (canonical : IsCanonical m q) (rounds : RoundsTo (n * 10 ^ e) m q) :
    meaning (ofDecimal n e) = .finite false m q := by
  obtain ⟨low, high⟩ := rounds.bounds positive canonical
  obtain ⟨at_least, below⟩ := decimal_bounds some e
  have range : (2 : ℚ) ^ (1075 : ℤ) < 10 ^ (400 : ℤ) := by exact_mod_cast two_pow_lt_ten_pow
  have least : -400 < (digitCount n : ℤ) + e := by
    refine (zpow_lt_zpow_iff_right₀ (by norm_num : (1 : ℚ) < 10)).1 (lt_of_lt_of_le ?_ below.le)
    refine lt_of_lt_of_le ?_ low
    rw [zpow_neg, zpow_neg]
    exact inv_strictAnti₀ (by positivity) range
  have most : (digitCount n : ℤ) + e - 1 < 400 := by
    refine (zpow_lt_zpow_iff_right₀ (by norm_num : (1 : ℚ) < 10)).1 ((at_least.trans high).trans_lt ?_)
    exact (zpow_le_zpow_right₀ one_le_two (by norm_num)).trans_lt range
  rw [ofDecimal_eq_nearest some least.le (by omega)]
  refine meaning_nearest (by positivity) (by positivity) canonical ?_
  rwa [decimal_eq_div]

end StockFlow.Number
