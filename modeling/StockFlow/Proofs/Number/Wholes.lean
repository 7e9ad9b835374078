import Mathlib
import StockFlow.Proofs.Number.Decimal

/-!
# Natural numbers as doubles

The double nearest to a natural number is the number itself as long as fifty-three bits are enough
for it, and else the nearest multiple of the power of two that parts the doubles there (`rounded`).
From half a step below the first power of two beyond the doubles on, it is infinite
(`whole?_nearest`).
-/

namespace StockFlow.Number

/-! ## Rounding -/

/-- The power of two that parts the doubles around a natural number, where it is more than one. -/
def unitOf (n : ℕ) : ℕ :=
  2 ^ (n.log2 - 52)

/-- The multiple of its unit that is nearest to a natural number; a tie goes to the even one. -/
def rounded (n : ℕ) : ℕ :=
  nearestWhole n (unitOf n) * unitOf n

/-- The natural numbers from which on the nearest double is infinite. -/
def beyondDoubles : ℕ :=
  2 ^ 1024 - 2 ^ 970

theorem unitOf_pos (n : ℕ) : 0 < unitOf n :=
  Nat.two_pow_pos _

theorem isNearest_natCast (k : ℕ) : IsNearest k k := by
  refine ⟨by linarith, by linarith, ?_⟩
  rintro (below | above) <;> linarith

theorem nearestWhole_eq {n d k : ℕ} (positive : 0 < d) (near : IsNearest ((n : ℚ) / d) k) :
    nearestWhole n d = k :=
  (isNearest_nearestWhole n positive).unique near

/-- A number is the double nearest to it just if its unit divides it. -/
theorem rounded_eq_self_iff {n : ℕ} : rounded n = n ↔ unitOf n ∣ n := by
  have positive := unitOf_pos n
  constructor
  · intro same
    exact ⟨nearestWhole n (unitOf n), by rw [mul_comm]; exact same.symm⟩
  · rintro ⟨k, same⟩
    have quotient : (n : ℚ) / unitOf n = k := by
      rw [div_eq_iff (by exact_mod_cast positive.ne'), mul_comm]
      exact_mod_cast same
    rw [rounded, nearestWhole_eq positive (quotient ▸ isNearest_natCast k), mul_comm]
    exact same.symm

theorem rounded_of_lt {n : ℕ} (small : n < 2 ^ 53) : rounded n = n := by
  have unit : unitOf n = 1 := by
    rcases Nat.eq_zero_or_pos n with rfl | some
    · rfl
    · have bits : n.log2 < 53 := (Nat.log2_lt some.ne').2 small
      rw [unitOf, Nat.sub_eq_zero_of_le (Nat.le_of_lt_succ bits), pow_zero]
  rw [rounded_eq_self_iff, unit]
  exact one_dvd n

/-- What is nearest lies below an even number just if the number itself is more than half a step
below it. -/
theorem IsNearest.lt_iff {v : ℚ} {m k : ℕ} (near : IsNearest v m) (even : Even k) :
    m < k ↔ 2 * v < 2 * k - 1 := by
  obtain ⟨low, high, tie⟩ := near
  constructor
  · intro below
    have below' : (m : ℚ) + 1 ≤ k := by exact_mod_cast below
    refine lt_of_le_of_ne (by linarith) fun same => ?_
    -- half-way to an even number the odd one below it is not taken
    have next : (m : ℚ) + 1 = k := by linarith
    have next : m + 1 = k := by exact_mod_cast next
    have even_below := tie (.inr (by linarith))
    rw [← next] at even
    exact Nat.not_even_iff_odd.2 even_below.add_one even
  · intro far
    have below : (m : ℚ) < k := by linarith
    exact_mod_cast below

/-! ## The nearest double -/

theorem gridOf_natCast (n : ℕ) : gridOf n = (n.log2 : ℤ) - 52 := by
  rw [gridOf, Int.log_natCast, ← Nat.log2_eq_log_two]
  omega

/-- On its grid a natural number has fifty-three bits. -/
theorem steps_bounds {n : ℕ} (some : 0 < n) :
    (hiddenBit : ℚ) ≤ n / 2 ^ ((n.log2 : ℤ) - 52) ∧
      (n : ℚ) / 2 ^ ((n.log2 : ℤ) - 52) < 2 * hiddenBit := by
  obtain ⟨low, high⟩ := log2_bounds some
  have power : (0 : ℚ) < 2 ^ ((n.log2 : ℤ) - 52) := by positivity
  have whole : ((2 : ℕ) : ℚ) ^ (n.log2 : ℤ) = hiddenBit * 2 ^ ((n.log2 : ℤ) - 52) := by
    rw [zpow_sub₀ two_ne_zero, hiddenBit_eq]
    push_cast
    norm_num
    field_simp
  rw [zpow_add_one₀ (by norm_num), whole] at high
  rw [whole] at low
  rw [le_div_iff₀ power, div_lt_iff₀ power]
  push_cast at high
  exact ⟨low, by linarith⟩

/-- The steps that a natural number is rounded to make up its rounded value. -/
theorem steps_eq_rounded {n s : ℕ} (some : 0 < n)
    (near : IsNearest ((n : ℚ) / 2 ^ ((n.log2 : ℤ) - 52)) s) :
    (s : ℚ) * 2 ^ ((n.log2 : ℤ) - 52) = rounded n := by
  rcases Nat.le_total 52 n.log2 with long | short
  · have unit : (2 : ℚ) ^ ((n.log2 : ℤ) - 52) = unitOf n := by
      rw [unitOf, Nat.cast_pow, ← zpow_natCast, Nat.cast_sub long]
      rfl
    rw [unit] at near ⊢
    rw [rounded, nearestWhole_eq (unitOf_pos n) near]
    push_cast
    rfl
  · -- short numbers are whole numbers of steps
    have whole : (n : ℚ) / 2 ^ ((n.log2 : ℤ) - 52) = ((n * 2 ^ (52 - n.log2) : ℕ) : ℚ) := by
      rw [div_eq_mul_inv, ← zpow_neg, neg_sub, Nat.cast_mul, Nat.cast_pow, ← zpow_natCast,
        Nat.cast_sub short]
      rfl
    have steps : s = n * 2 ^ (52 - n.log2) := by
      rw [whole] at near
      exact near.unique (isNearest_natCast _)
    have small : n < 2 ^ 53 := (Nat.log2_lt some.ne').1 (Nat.lt_succ_of_le short)
    rw [rounded_of_lt small, steps, ← whole]
    field_simp

/-- Steps on a grid make up a canonical pair, perhaps on the next grid. -/
theorem exists_canonical {s : ℕ} {q : ℤ} (least : -1074 ≤ q) (low : hiddenBit ≤ s)
    (high : s ≤ 2 * hiddenBit) (fits : (q + 1074).toNat * hiddenBit + s < infinityBits) :
    ∃ m q', IsCanonical m q' ∧ bitsOf m q' = (q + 1074).toNat * hiddenBit + s ∧
      (m : ℚ) * 2 ^ q' = s * 2 ^ q := by
  rw [infinityBits_eq] at fits
  rcases Nat.lt_or_eq_of_le high with below | rfl
  · refine ⟨s, q, ⟨least, ?_, below, .inr low⟩, rfl, rfl⟩
    rw [hiddenBit_eq] at *
    omega
  · refine ⟨hiddenBit, q + 1, ⟨by omega, ?_, ?_, .inr le_rfl⟩, ?_, ?_⟩
    · rw [hiddenBit_eq] at *
      omega
    · rw [hiddenBit_eq]
      omega
    · rw [bitsOf, hiddenBit_eq]
      omega
    · rw [zpow_add_one₀ two_ne_zero]
      push_cast
      ring

theorem steps_between {n s : ℕ} (some : 0 < n)
    (near : IsNearest ((n : ℚ) / 2 ^ ((n.log2 : ℤ) - 52)) s) :
    hiddenBit ≤ s ∧ s ≤ 2 * hiddenBit := by
  obtain ⟨low, high⟩ := steps_bounds some
  obtain ⟨below, above, -⟩ := near
  constructor
  · have at_least : (hiddenBit : ℚ) < s + 1 := by linarith
    exact Nat.le_of_lt_succ (by exact_mod_cast at_least)
  · have at_most : (s : ℚ) < 2 * hiddenBit + 1 := by linarith
    exact Nat.le_of_lt_succ (by exact_mod_cast at_most)

theorem beyondDoubles_eq : beyondDoubles = 18014398509481983 * 2 ^ 970 := by
  decide +kernel

/-- The steps of a natural number stay below those of infinity just if the number is small enough. -/
theorem fits_iff {n s : ℕ} (some : 0 < n)
    (near : IsNearest ((n : ℚ) / 2 ^ ((n.log2 : ℤ) - 52)) s) :
    ((n.log2 : ℤ) - 52 + 1074).toNat * hiddenBit + s < infinityBits ↔ n < beyondDoubles := by
  obtain ⟨at_least, at_most⟩ := steps_between some near
  have first : 2 ^ n.log2 ≤ n := Nat.log2_self_le some.ne'
  have last : n < 2 ^ (n.log2 + 1) := Nat.lt_log2_self
  rw [infinityBits_eq]
  rcases Nat.lt_trichotomy n.log2 1023 with short | top | long
  · have small : n < beyondDoubles :=
      last.trans_le ((Nat.pow_le_pow_right two_pos (by omega)).trans
        (by decide +kernel : 2 ^ 1023 ≤ beyondDoubles))
    rw [hiddenBit_eq] at *
    exact iff_of_true (by omega) small
  · have steps : ((n.log2 : ℤ) - 52 + 1074).toNat * hiddenBit + s < 9218868437227405312 ↔
        s < 2 * hiddenBit := by
      rw [top, hiddenBit_eq]
      omega
    have bound : (beyondDoubles : ℚ) = (2 * (2 * hiddenBit) - 1) / 2 * 2 ^ ((n.log2 : ℤ) - 52) := by
      rw [top, hiddenBit_eq, beyondDoubles_eq, Nat.cast_mul, Nat.cast_pow,
        show ((1023 : ℕ) : ℤ) - 52 = ((970 : ℕ) : ℤ) + 1 from rfl, zpow_add_one₀ two_ne_zero,
        zpow_natCast]
      push_cast
      generalize (2 : ℚ) ^ 970 = p
      ring
    rw [steps, near.lt_iff (even_two_mul _), ← Nat.cast_lt (α := ℚ), bound,
      ← div_lt_iff₀ (by positivity), lt_div_iff₀ two_pos]
    push_cast
    rw [mul_comm]
  · have large : beyondDoubles ≤ n :=
      calc beyondDoubles ≤ 2 ^ 1024 := by decide +kernel
        _ ≤ 2 ^ n.log2 := Nat.pow_le_pow_right two_pos (by omega)
        _ ≤ n := first
    rw [hiddenBit_eq] at *
    exact iff_of_false (by omega) (not_lt.2 large)

theorem nearest_of_beyond {n : ℕ} (large : beyondDoubles ≤ n) :
    nearest n 1 = .ofBits (.ofNat infinityBits) := by
  have some : 0 < n := lt_of_lt_of_le (by decide +kernel) large
  obtain ⟨s, near, bits⟩ := exists_nearestBits some one_pos
  rw [Nat.cast_one, div_one, gridOf_natCast n] at near bits
  have beyond := mt (fits_iff some near).1 (not_lt.2 large)
  rw [nearest, if_neg some.ne', bits, min_eq_left (not_lt.1 beyond)]

/-- The double nearest to a natural number is a whole number, if it is finite. -/
theorem whole?_nearest (n : ℕ) :
    whole? (nearest n 1) = if n < beyondDoubles then some (rounded n : ℤ) else none := by
  rcases Nat.lt_or_ge n beyondDoubles with small | large
  · rw [if_pos small]
    rcases Nat.eq_zero_or_pos n with rfl | some
    · decide +kernel
    · obtain ⟨s, near, bits⟩ := exists_nearestBits some one_pos
      rw [Nat.cast_one, div_one, gridOf_natCast n] at near bits
      have fits := (fits_iff some near).2 small
      obtain ⟨at_least, at_most⟩ := steps_between some near
      obtain ⟨m, q, canonical, same, product⟩ :=
        exists_canonical (by omega) at_least at_most fits
      have finite : meaning (nearest n 1) = .finite false m q := by
        rw [nearest, if_neg some.ne', bits, min_eq_right fits.le, ← same, meaning_bitsOf canonical]
      rw [whole?_eq_some_iff finite, if_neg Bool.false_ne_true, product, steps_eq_rounded some near]
      rfl
  · rw [if_neg (not_lt.2 large), nearest_of_beyond large, whole?, meaning_ofBits le_rfl]
    rfl

/-! ## Decimals -/

theorem digitCount_eq {n d : ℕ} (low : 10 ^ d ≤ n) (high : n < 10 ^ (d + 1)) :
    digitCount n = d + 1 := by
  refine Nat.le_antisymm ((Nat.length_toDigits_le_iff (by norm_num) d.succ_pos).2 high) ?_
  by_contra few
  have small : n < 10 ^ digitCount n := lt_pow_digitCount n
  have le : 10 ^ digitCount n ≤ 10 ^ d := Nat.pow_le_pow_right (by norm_num) (by omega)
  omega

theorem digitCount_mul_pow {n : ℕ} (some : 0 < n) (k : ℕ) :
    digitCount (n * 10 ^ k) = digitCount n + k := by
  obtain ⟨d, count⟩ := Nat.exists_eq_succ_of_ne_zero (digitCount_pos n).ne'
  have low := pow_digitCount_le some
  have high := lt_pow_digitCount n
  rw [count, Nat.succ_sub_one] at low
  rw [count] at high
  have power : 0 < 10 ^ k := Nat.pow_pos (by norm_num)
  rw [count, digitCount_eq (d := d + k)]
  · omega
  · rw [pow_add]
    exact Nat.mul_le_mul_right _ low
  · rw [Nat.add_right_comm, pow_add]
    exact Nat.mul_lt_mul_of_pos_right high power

/-- A natural number with zeros behind a point is read as the double nearest to it. -/
theorem ofDecimal_mul_pow (n k : ℕ) : ofDecimal (n * 10 ^ k) (-k) = nearest n 1 := by
  rcases Nat.eq_zero_or_pos n with rfl | some
  · rw [Nat.zero_mul, ofDecimal_zero]
    rfl
  · have power : 0 < 10 ^ k := Nat.pow_pos (by norm_num)
    have size : (digitCount (n * 10 ^ k) : ℤ) + -k = digitCount n := by
      rw [digitCount_mul_pow some]
      omega
    rcases Nat.lt_or_ge 400 (digitCount n) with long | short
    · have large : beyondDoubles ≤ n :=
        calc beyondDoubles ≤ 10 ^ 400 := by decide +kernel
          _ ≤ 10 ^ (digitCount n - 1) := Nat.pow_le_pow_right (by norm_num) (by omega)
          _ ≤ n := pow_digitCount_le some
      rw [nearest_of_beyond large, ofDecimal, length_toString, size, if_neg, if_pos (by omega)]
      rw [Bool.or_eq_true, decide_eq_true_eq, decide_eq_true_eq, not_or]
      exact ⟨(Nat.mul_pos some power).ne', by omega⟩
    · rw [ofDecimal_eq_nearest (Nat.mul_pos some power) (by omega) (by omega)]
      refine nearest_congr (by positivity) (by positivity) some one_pos ?_
      rw [decimal_eq_div, zpow_neg, zpow_natCast]
      push_cast
      field_simp

end StockFlow.Number
