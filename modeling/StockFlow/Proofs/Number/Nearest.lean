import Mathlib
import StockFlow.Number.Rounding
import StockFlow.Proofs.Number.Meaning

/-!
# The nearest double

The grid of doubles around a positive number is known by the number alone (`gridOf`), and so is the
whole number of steps that is nearest to it (`IsNearest.unique`). So equal fractions are rounded
alike (`nearest_congr`), and a number that lies in the stretch of a double, half-way to its
neighbours, is rounded to that double (`meaning_nearest`). Below a power of two the grid is finer
than above it; the double at the power of two has a shorter stretch on that side.
-/

namespace StockFlow.Number

/-! ## The nearest whole number -/

/-- A whole number at most half a unit away, an even one where there are two. -/
structure IsNearest (v : ℚ) (m : ℕ) : Prop where
  low : 2 * m - 1 ≤ 2 * v
  high : 2 * v ≤ 2 * m + 1
  tie : 2 * v = 2 * m - 1 ∨ 2 * v = 2 * m + 1 → Even m

theorem IsNearest.unique {v : ℚ} {m k : ℕ} (first : IsNearest v m) (second : IsNearest v k) :
    m = k := by
  wlog below : m < k generalizing m k
  · rcases Nat.lt_or_ge k m with above | above
    · exact (this second first above).symm
    · omega
  exfalso
  have next : k = m + 1 := by
    have near : (2 * k - 1 : ℚ) ≤ 2 * m + 1 := second.low.trans first.high
    have near : 2 * k ≤ 2 * m + 2 := by exact_mod_cast (by linarith : (2 * k : ℚ) ≤ 2 * m + 2)
    omega
  subst next
  have middle : 2 * v = 2 * m + 1 := by
    have low := second.low
    push_cast at low
    linarith [first.high]
  have even := first.tie (.inr middle)
  have even' := second.tie (.inl (by push_cast; linarith))
  exact Nat.not_even_iff_odd.2 (even.add_one) even'

/-- What lies in the middle between two whole numbers leaves half the divisor as a rest. -/
theorem two_mul_mod_of_middle {n d k : ℕ} (middle : 2 * n = (2 * k + 1) * d) (positive : 0 < d) :
    2 * (n % d) = d := by
  have whole := Nat.div_add_mod n d
  have small := Nat.mod_lt n positive
  have split : d * (2 * (n / d)) + 2 * (n % d) = d * (2 * k) + d := by
    rw [Nat.mul_left_comm, ← Nat.mul_add, whole, middle]
    ring
  have same : n / d = k := by
    rcases Nat.lt_trichotomy (n / d) k with below | same | above
    · have step : d * (2 * (n / d) + 2) ≤ d * (2 * k) := Nat.mul_le_mul_left d (by omega)
      rw [Nat.mul_add] at step
      omega
    · exact same
    · have step : d * (2 * k + 2) ≤ d * (2 * (n / d)) := Nat.mul_le_mul_left d (by omega)
      rw [Nat.mul_add] at step
      omega
  rw [same] at split
  omega

theorem even_nearestWhole {n d : ℕ} (middle : 2 * (n % d) = d) : Even (nearestWhole n d) := by
  unfold nearestWhole
  simp only [middle, lt_irrefl, decide_false, Bool.false_or, decide_true, Bool.true_and,
    decide_eq_true_eq]
  rw [Nat.even_iff]
  split <;> omega

theorem isNearest_nearestWhole (n : ℕ) {d : ℕ} (positive : 0 < d) :
    IsNearest ((n : ℚ) / d) (nearestWhole n d) := by
  obtain ⟨low, high⟩ := nearestWhole_bounds n positive
  have positive' : (0 : ℚ) < d := by exact_mod_cast positive
  have times : ∀ v : ℚ, 2 * ((n : ℚ) / d) = v ↔ 2 * (n : ℚ) = v * d := fun v => by
    rw [← mul_div_assoc, div_eq_iff positive'.ne']
  constructor
  · rw [← mul_div_assoc, le_div_iff₀ positive', sub_mul, one_mul, sub_le_iff_le_add]
    exact_mod_cast high
  · rw [← mul_div_assoc, div_le_iff₀ positive']
    exact_mod_cast low
  · intro tie
    rw [times, times] at tie
    rcases tie with below | above
    · have filled : nearestWhole n d ≠ 0 := by
        intro empty
        rw [empty] at below
        have nonneg : (0 : ℚ) ≤ 2 * n := by positivity
        push_cast at below
        linarith
      obtain ⟨k, same⟩ := Nat.exists_eq_succ_of_ne_zero filled
      refine even_nearestWhole (two_mul_mod_of_middle (k := k) ?_ positive)
      rw [same] at below
      push_cast at below
      have middle : (2 * n : ℚ) = (2 * k + 1) * d := by rw [below]; ring
      exact_mod_cast middle
    · refine even_nearestWhole (two_mul_mod_of_middle (k := nearestWhole n d) ?_ positive)
      exact_mod_cast above

/-! ## The leading bit -/

/-- A power with a whole exponent as a quotient of two with natural ones. -/
theorem zpow_eq_div {c : ℚ} (nonzero : c ≠ 0) (q : ℤ) : c ^ q = c ^ q.toNat / c ^ (-q).toNat := by
  rw [eq_div_iff (pow_ne_zero _ nonzero), ← zpow_natCast, ← zpow_natCast, ← zpow_add₀ nonzero]
  congr 1
  omega

/-- A fraction measured in units of a power. -/
theorem div_zpow {c : ℚ} (nonzero : c ≠ 0) (v : ℚ) (q : ℤ) :
    v / c ^ q = v * c ^ (-q).toNat / c ^ q.toNat := by
  rw [zpow_eq_div nonzero q, div_div_eq_mul_div]

/-- A natural number lies between the powers of two around its leading bit. -/
theorem log2_bounds {n : ℕ} (some : 0 < n) :
    ((2 : ℕ) : ℚ) ^ (n.log2 : ℤ) ≤ n ∧ (n : ℚ) < ((2 : ℕ) : ℚ) ^ ((n.log2 : ℤ) + 1) := by
  constructor
  · rw [zpow_natCast]
    exact_mod_cast Nat.log2_self_le some.ne'
  · rw [← Nat.cast_succ, zpow_natCast]
    exact_mod_cast Nat.lt_log2_self (n := n)

theorem leadingBit_eq {n d : ℕ} (some : 0 < n) (positive : 0 < d) :
    leadingBit n d = Int.log 2 ((n : ℚ) / d) := by
  have two : ((2 : ℕ) : ℚ) ≠ 0 := by norm_num
  have positive' : (0 : ℚ) < d := by exact_mod_cast positive
  have quotient : (0 : ℚ) < (n : ℚ) / d := div_pos (by exact_mod_cast some) positive'
  obtain ⟨n_low, n_high⟩ := log2_bounds some
  obtain ⟨d_low, d_high⟩ := log2_bounds positive
  have low : ((2 : ℕ) : ℚ) ^ (((n.log2 : ℤ) - d.log2) - 1) ≤ (n : ℚ) / d := by
    rw [le_div_iff₀ positive']
    calc _ ≤ ((2 : ℕ) : ℚ) ^ (((n.log2 : ℤ) - d.log2) - 1) * ((2 : ℕ) : ℚ) ^ ((d.log2 : ℤ) + 1) :=
          mul_le_mul_of_nonneg_left d_high.le (by positivity)
      _ = ((2 : ℕ) : ℚ) ^ (n.log2 : ℤ) := by
          rw [← zpow_add₀ two]
          congr 1
          ring
      _ ≤ n := n_low
  have high : (n : ℚ) / d < ((2 : ℕ) : ℚ) ^ (((n.log2 : ℤ) - d.log2) + 1) := by
    rw [div_lt_iff₀ positive']
    calc (n : ℚ) < ((2 : ℕ) : ℚ) ^ ((n.log2 : ℤ) + 1) := n_high
      _ = ((2 : ℕ) : ℚ) ^ (((n.log2 : ℤ) - d.log2) + 1) * ((2 : ℕ) : ℚ) ^ (d.log2 : ℤ) := by
          rw [← zpow_add₀ two]
          congr 1
          ring
      _ ≤ _ := mul_le_mul_of_nonneg_left d_low (by positivity)
  have at_least := (Int.zpow_le_iff_le_log one_lt_two quotient).1 low
  have below := (Int.lt_zpow_iff_log_lt one_lt_two quotient).1 high
  have reached : ∀ guess : ℤ, d * 2 ^ guess.toNat ≤ n * 2 ^ (-guess).toNat ↔
      guess ≤ Int.log 2 ((n : ℚ) / d) := by
    intro guess
    rw [← Int.zpow_le_iff_le_log one_lt_two quotient, zpow_eq_div two,
      div_le_div_iff₀ (by positivity) positive', mul_comm]
    exact_mod_cast Iff.rfl
  unfold leadingBit
  simp only [Nat.pow_eq]
  split
  · rename_i here
    have here := (reached _).1 here
    omega
  · rename_i under
    have under := mt (reached _).2 under
    omega

/-! ## The grid -/

/-- The power of two that parts the doubles around a positive number. -/
def gridOf (v : ℚ) : ℤ :=
  max (Int.log 2 v - 52) (-1074)

/-- On its grid a number has fifty-three bits, or fewer on the finest one. -/
theorem gridOf_eq {v : ℚ} {q : ℤ} (positive : 0 < v) (least : -1074 ≤ q)
    (below : v / 2 ^ q < 2 * hiddenBit) (full : q = -1074 ∨ hiddenBit ≤ v / 2 ^ q) :
    gridOf v = q := by
  have two : (0 : ℚ) < 2 ^ q := by positivity
  have power : ((2 : ℕ) : ℚ) ^ (53 + q) = 2 * hiddenBit * 2 ^ q := by
    rw [zpow_add₀ (by norm_num), hiddenBit_eq]
    norm_num
  have below : Int.log 2 v < 53 + q := by
    rw [← Int.lt_zpow_iff_log_lt one_lt_two positive, power]
    exact (div_lt_iff₀ two).1 below
  rcases full with rfl | full
  · rw [gridOf]
    omega
  · have power : ((2 : ℕ) : ℚ) ^ (52 + q) = hiddenBit * 2 ^ q := by
      rw [zpow_add₀ (by norm_num), hiddenBit_eq]
      norm_num
    have reached : 52 + q ≤ Int.log 2 v := by
      rw [← Int.zpow_le_iff_le_log one_lt_two positive, power]
      exact (le_div_iff₀ two).1 full
    rw [gridOf]
    omega

theorem gridExponent_eq {n d : ℕ} (some : 0 < n) (positive : 0 < d) :
    gridExponent n d = gridOf ((n : ℚ) / d) := by
  rw [gridExponent, leadingBit_eq some positive, gridOf]

/-- The bits nearest to a positive number: where its grid starts, and the steps on it. -/
theorem exists_nearestBits {n d : ℕ} (some : 0 < n) (positive : 0 < d) :
    ∃ s, IsNearest ((n : ℚ) / d / 2 ^ gridOf ((n : ℚ) / d)) s ∧
      nearestBits n d =
        min infinityBits ((gridOf ((n : ℚ) / d) + 1074).toNat * hiddenBit + s) := by
  refine ⟨_, ?_, by rw [nearestBits, gridExponent_eq some positive]⟩
  have near := isNearest_nearestWhole (n * 2 ^ (-gridOf ((n : ℚ) / d)).toNat)
    (d := d * 2 ^ (gridOf ((n : ℚ) / d)).toNat) (by positivity)
  rw [div_zpow two_ne_zero, div_mul_eq_mul_div, div_div]
  exact_mod_cast near

/-- Bits are nearest just if they are so many steps on the grid of the number. -/
theorem nearestBits_eq {n d s : ℕ} (some : 0 < n) (positive : 0 < d)
    (near : IsNearest ((n : ℚ) / d / 2 ^ gridOf ((n : ℚ) / d)) s) :
    nearestBits n d = min infinityBits ((gridOf ((n : ℚ) / d) + 1074).toNat * hiddenBit + s) := by
  obtain ⟨s', near', bits⟩ := exists_nearestBits some positive
  rw [bits, near.unique near']

/-- Equal fractions have the same nearest double. -/
theorem nearest_congr {n d n' d' : ℕ} (some : 0 < n) (positive : 0 < d) (some' : 0 < n')
    (positive' : 0 < d') (same : (n : ℚ) / d = n' / d') : nearest n d = nearest n' d' := by
  obtain ⟨s, near, bits⟩ := exists_nearestBits some positive
  rw [same] at near bits
  rw [nearest, nearest, if_neg some.ne', if_neg some'.ne', bits,
    nearestBits_eq some' positive' near]

/-! ## Stretches -/

/-- How many quarters of a step lie between a double and the end of its stretch below. -/
def quartersBelow (m : ℕ) (q : ℤ) : ℕ :=
  if m = hiddenBit && -1074 < q then 1 else 2

/-- A number that lies in the stretch of the double `m * 2 ^ q`. -/
structure RoundsTo (v : ℚ) (m : ℕ) (q : ℤ) : Prop where
  low : 4 * m - quartersBelow m q ≤ 4 * (v / 2 ^ q)
  high : 4 * (v / 2 ^ q) ≤ 4 * m + 2
  ends : 4 * (v / 2 ^ q) = 4 * m - quartersBelow m q ∨ 4 * (v / 2 ^ q) = 4 * m + 2 → Even m

theorem quartersBelow_le (m : ℕ) (q : ℤ) : quartersBelow m q ≤ 2 := by
  unfold quartersBelow
  split <;> norm_num

/-- A double lies in its own stretch. -/
theorem roundsTo_self (m : ℕ) (q : ℤ) : RoundsTo (m * 2 ^ q) m q := by
  have exact : (m : ℚ) * 2 ^ q / 2 ^ q = m := mul_div_cancel_right₀ _ (by positivity)
  have gap : 0 < quartersBelow m q := by
    unfold quartersBelow
    split <;> norm_num
  have gap : (0 : ℚ) < quartersBelow m q := by exact_mod_cast gap
  refine ⟨?_, ?_, ?_⟩ <;> rw [exact]
  · linarith
  · linarith
  · rintro (below | above) <;> linarith

theorem nearestBits_of_roundsTo {n d m : ℕ} {q : ℤ} (some : 0 < n) (positive : 0 < d)
    (canonical : IsCanonical m q) (rounds : RoundsTo ((n : ℚ) / d) m q) :
    nearestBits n d = bitsOf m q := by
  have fits := canonical.bitsOf_lt
  obtain ⟨least, most, lt, full⟩ := canonical
  obtain ⟨low, high, ends⟩ := rounds
  have some' : (0 : ℚ) < n / d := div_pos (by exact_mod_cast some) (by exact_mod_cast positive)
  have gap : (quartersBelow m q : ℚ) ≤ 2 := by exact_mod_cast quartersBelow_le m q
  have lt' : (m : ℚ) + 1 ≤ 2 * hiddenBit := by exact_mod_cast lt
  by_cases here : q = -1074 ∨ (hiddenBit : ℚ) ≤ n / d / 2 ^ q
  · have grid : gridOf ((n : ℚ) / d) = q := gridOf_eq some' least (by linarith) here
    have near : IsNearest ((n : ℚ) / d / 2 ^ gridOf ((n : ℚ) / d)) m := by
      rw [grid]
      refine ⟨by linarith, by linarith, ?_⟩
      rintro (below | above)
      · exact ends (.inl (by linarith))
      · exact ends (.inr (by linarith))
    rw [nearestBits_eq some positive near, grid, ← bitsOf]
    omega
  · -- only the least mantissa has numbers in its stretch that lie on the finer grid below
    rw [not_or, not_le] at here
    obtain ⟨normal, under⟩ := here
    have full := full.resolve_left normal
    have same : m = hiddenBit := by
      have near : (m : ℚ) < hiddenBit + 1 := by linarith
      have near : m < hiddenBit + 1 := by exact_mod_cast near
      omega
    have gap : quartersBelow m q = 1 := by
      rw [quartersBelow, if_pos (by simp [same]; omega)]
    have finer : (n : ℚ) / d / 2 ^ (q - 1) = 2 * (n / d / 2 ^ q) := by
      rw [zpow_sub_one₀ two_ne_zero]
      field_simp
    rw [gap, same] at low
    push_cast at low
    have big : (1 : ℚ) ≤ hiddenBit := by rw [hiddenBit_eq]; norm_num
    have grid : gridOf ((n : ℚ) / d) = q - 1 := by
      refine gridOf_eq some' (by omega) ?_ (.inr ?_)
      · rw [finer]
        linarith
      · rw [finer]
        linarith
    have near : IsNearest ((n : ℚ) / d / 2 ^ gridOf ((n : ℚ) / d)) (2 * hiddenBit) := by
      rw [grid, finer]
      refine ⟨?_, ?_, fun _ => even_two_mul _⟩
      · push_cast
        linarith
      · push_cast
        linarith
    rw [nearestBits_eq some positive near, grid]
    rw [bitsOf, same] at *
    rw [infinityBits_eq] at *
    rw [hiddenBit_eq] at *
    omega

/-- A number in the stretch of a double is rounded to it. -/
theorem meaning_nearest {n d m : ℕ} {q : ℤ} (some : 0 < n) (positive : 0 < d)
    (canonical : IsCanonical m q) (rounds : RoundsTo ((n : ℚ) / d) m q) :
    meaning (nearest n d) = .finite false m q := by
  rw [nearest, if_neg some.ne', nearestBits_of_roundsTo some positive canonical rounds,
    meaning_bitsOf canonical]

end StockFlow.Number
