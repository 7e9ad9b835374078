import Mathlib
import StockFlow.Number.Shortest
import StockFlow.Proofs.Number.Nearest

/-!
# The shortest decimal reads back

The search for the shortest decimal of a double takes whole numbers of units that lie in the
double's stretch (`holds_iff`). In units of its seventeenth digit a double has one beside it that
does (`exists_beside`): half such a unit is less than the stretch reaches to either side. So the
search always ends, and what it finds is rounded to the double (`roundsTo_shortest`).
-/

namespace StockFlow.Number

/-! ## Points of a stretch -/

theorem roundsTo_iff {v : ℚ} {m : ℕ} {q : ℤ} (odd : ¬ Even m) :
    RoundsTo v m q ↔ 4 * m - quartersBelow m q < 4 * (v / 2 ^ q) ∧ 4 * (v / 2 ^ q) < 4 * m + 2 := by
  constructor
  · rintro ⟨low, high, ends⟩
    exact ⟨low.lt_of_ne fun same => odd (ends (.inl same.symm)),
      high.lt_of_ne fun same => odd (ends (.inr same))⟩
  · rintro ⟨low, high⟩
    exact ⟨low.le, high.le, fun ends =>
      ends.elim (fun same => absurd same low.ne') fun same => absurd same high.ne⟩

/-- A double is measured in units of a power of ten by natural numbers alone. -/
theorem zpow_div_zpow (q e : ℤ) :
    (2 : ℚ) ^ q / 10 ^ e =
      4 * (2 ^ (q - 2).toNat * 10 ^ (-e).toNat) / (2 ^ (2 - q).toNat * 10 ^ e.toNat) := by
  have two : (2 : ℚ) ^ q = 4 * (2 ^ (q - 2).toNat / 2 ^ (2 - q).toNat) := by
    have units := zpow_eq_div (c := 2) two_ne_zero (q - 2)
    rw [neg_sub] at units
    rw [← units, zpow_sub₀ two_ne_zero]
    norm_num
    field_simp
  rw [two, zpow_eq_div (c := 10) (by norm_num) e]
  field_simp

theorem four_mul_div_zpow (k : ℕ) (q e : ℤ) :
    4 * ((k : ℚ) * 10 ^ e / 2 ^ q) =
      ((k * (2 ^ (2 - q).toNat * 10 ^ e.toNat) : ℕ) : ℚ) /
        ((2 ^ (q - 2).toNat * 10 ^ (-e).toNat : ℕ) : ℚ) := by
  have units := zpow_div_zpow q e
  rw [← inv_inj, inv_div] at units
  rw [mul_div_assoc, units]
  push_cast
  field_simp

/-- A whole number of units lies in a stretch just if it rounds to the double. -/
theorem holds_iff {m : ℕ} (positive : 0 < m) (q e : ℤ) (k : ℕ) :
    ((Stretch.ofDouble m q).inUnits e).holds k = true ↔ RoundsTo ((k : ℚ) * 10 ^ e) m q := by
  have gap := quartersBelow_le m q
  have low : ((4 * m - quartersBelow m q : ℕ) : ℚ) = 4 * m - quartersBelow m q := by
    rw [Nat.cast_sub (by omega)]
    push_cast
    rfl
  have high : ((4 * m + 2 : ℕ) : ℚ) = 4 * m + 2 := by
    push_cast
    rfl
  have units : (0 : ℚ) < ((2 ^ (q - 2).toNat * 10 ^ (-e).toNat : ℕ) : ℚ) := by positivity
  have below : ((Stretch.ofDouble m q).inUnits e).low =
      (4 * m - quartersBelow m q) * (2 ^ (q - 2).toNat * 10 ^ (-e).toNat) :=
    Nat.mul_assoc ..
  have above : ((Stretch.ofDouble m q).inUnits e).high =
      (4 * m + 2) * (2 ^ (q - 2).toNat * 10 ^ (-e).toNat) :=
    Nat.mul_assoc ..
  have point : k * ((Stretch.ofDouble m q).inUnits e).denominator =
      k * (2 ^ (2 - q).toNat * 10 ^ e.toNat) :=
    rfl
  have closed : ((Stretch.ofDouble m q).inUnits e).closed = decide (m % 2 = 0) :=
    rfl
  rw [Stretch.holds, below, above, point, closed]
  by_cases even : Even m
  · rw [if_pos (decide_eq_true (Nat.even_iff.1 even)), Bool.and_eq_true, decide_eq_true_eq,
      decide_eq_true_eq]
    constructor
    · rintro ⟨above, below⟩
      refine ⟨?_, ?_, fun _ => even⟩
      · rw [four_mul_div_zpow, le_div_iff₀ units, ← low]
        exact_mod_cast above
      · rw [four_mul_div_zpow, div_le_iff₀ units, ← high]
        exact_mod_cast below
    · rintro ⟨above, below, -⟩
      rw [four_mul_div_zpow, le_div_iff₀ units, ← low] at above
      rw [four_mul_div_zpow, div_le_iff₀ units, ← high] at below
      exact_mod_cast And.intro above below
  · rw [if_neg fun closed => even (Nat.even_iff.2 (of_decide_eq_true closed)), Bool.and_eq_true,
      decide_eq_true_eq, decide_eq_true_eq, roundsTo_iff even, four_mul_div_zpow,
      lt_div_iff₀ units, ← low, div_lt_iff₀ units, ← high]
    exact_mod_cast Iff.rfl

/-! ## The search -/

theorem Stretch.holds_of_nearestWhole? {s : Stretch} {k : ℕ} (found : s.nearestWhole? = some k) :
    s.holds k = true := by
  unfold Stretch.nearestWhole? at found
  simp only at found
  split at found
  · split at found <;> obtain rfl := Option.some.inj found <;> assumption
  · obtain rfl := Option.some.inj found
    assumption
  · obtain rfl := Option.some.inj found
    assumption
  · cases found

/-- Of the two whole numbers beside its value, a stretch only has to hold one. -/
theorem Stretch.exists_nearestWhole? {s : Stretch} {k : ℕ}
    (beside : k = s.value / s.denominator ∨ k = s.value / s.denominator + 1)
    (holds : s.holds k = true) : ∃ k, s.nearestWhole? = some k := by
  unfold Stretch.nearestWhole?
  simp only
  split
  · split <;> exact ⟨_, rfl⟩
  · exact ⟨_, rfl⟩
  · exact ⟨_, rfl⟩
  · rename_i below above
    rcases beside with rfl | rfl
    · rw [below] at holds
      cases holds
    · rw [above] at holds
      cases holds

theorem digitCount_pos (n : ℕ) : 0 < digitCount n :=
  Nat.length_toDigits_pos

theorem lt_pow_digitCount (n : ℕ) : n < 10 ^ digitCount n :=
  (Nat.length_toDigits_le_iff (by norm_num) (digitCount_pos n)).1 le_rfl

theorem pow_digitCount_le {n : ℕ} (positive : 0 < n) : 10 ^ (digitCount n - 1) ≤ n := by
  by_contra under
  rw [not_le] at under
  rcases Nat.eq_zero_or_pos (digitCount n - 1) with single | more
  · rw [single] at under
    omega
  · have fewer : digitCount n ≤ digitCount n - 1 :=
      (Nat.length_toDigits_le_iff (by norm_num) more).2 under
    omega

/-- A number is at least the power of ten of its leading digit. -/
theorem leadingPower_le {n d : ℕ} (some : 0 < n) (positive : 0 < d) :
    (10 : ℚ) ^ leadingPower n d ≤ n / d := by
  have positive' : (0 : ℚ) < d := by exact_mod_cast positive
  rw [le_div_iff₀ positive']
  unfold leadingPower
  split
  · rename_i large
    have quotient : 0 < n / d := Nat.div_pos large positive
    have count := digitCount_pos (n / d)
    have power : (10 : ℚ) ^ ((digitCount (n / d) : ℤ) - 1) =
        ((10 ^ (digitCount (n / d) - 1) : ℕ) : ℚ) := by
      rw [← Nat.cast_pred count, zpow_natCast]
      push_cast
      rfl
    rw [power]
    have small : 10 ^ (digitCount (n / d) - 1) * d ≤ n :=
      (Nat.mul_le_mul_right d (pow_digitCount_le quotient)).trans (Nat.div_mul_le_self n d)
    exact_mod_cast small
  · have less : (d - 1) / n < 10 ^ digitCount ((d - 1) / n) := lt_pow_digitCount _
    rw [Nat.div_lt_iff_lt_mul some] at less
    rw [zpow_neg, zpow_natCast, inv_mul_le_iff₀ (by positivity)]
    have small : d ≤ 10 ^ digitCount ((d - 1) / n) * n := by omega
    exact_mod_cast small

/-- The number that a decimal stands for. -/
def Decimal.value (d : Decimal) : ℚ :=
  d.digits * 10 ^ d.exponent

theorem value_go (fuel digits : ℕ) (exponent : ℤ) :
    (Decimal.trim.go digits exponent fuel).value = (Decimal.mk digits exponent).value := by
  induction fuel generalizing digits exponent with
  | zero => rfl
  | succ fuel ih =>
    rw [Decimal.trim.go]
    split
    · rename_i last
      obtain ⟨tens, rfl⟩ := Nat.dvd_of_mod_eq_zero last
      rw [ih, Nat.mul_div_cancel_left tens (by norm_num), Decimal.value, Decimal.value,
        zpow_add_one₀ (by norm_num)]
      push_cast
      ring
    · rfl

theorem value_trim (d : Decimal) : d.trim.value = d.value :=
  value_go ..

/-! ## Seventeen digits -/

theorem value_ofDouble (m : ℕ) (q e : ℤ) :
    (((Stretch.ofDouble m q).inUnits e).value : ℚ) /
        ((Stretch.ofDouble m q).inUnits e).denominator = m * 2 ^ q / 10 ^ e := by
  have units : ((Stretch.ofDouble m q).inUnits e).value =
      m * (4 * (2 ^ (q - 2).toNat * 10 ^ (-e).toNat)) := by
    show 4 * m * 2 ^ (q - 2).toNat * 10 ^ (-e).toNat = _
    ring
  have denominator : ((Stretch.ofDouble m q).inUnits e).denominator =
      2 ^ (2 - q).toNat * 10 ^ e.toNat :=
    rfl
  rw [units, denominator, mul_div_assoc (m : ℚ), zpow_div_zpow]
  push_cast
  rw [mul_div_assoc (m : ℚ)]

/-- A step of a grid that has seventeen digits of a double is too small to miss its stretch. -/
theorem fine_of_canonical {m : ℕ} {q : ℤ} (canonical : IsCanonical m q) :
    (2 * m : ℚ) < 10 ^ 16 * quartersBelow m q := by
  have lt := canonical.lt
  unfold quartersBelow
  split
  · rename_i least
    rw [Bool.and_eq_true, decide_eq_true_eq] at least
    rw [least.1, hiddenBit_eq]
    norm_num
  · rw [hiddenBit_eq] at lt
    have lt : (m : ℚ) < 9007199254740992 := by exact_mod_cast lt
    push_cast
    linarith

/-- What is at most half a unit away from a double, with seventeen digits in units, rounds to it. -/
theorem roundsTo_of_near {m k : ℕ} {q unit : ℤ} (canonical : IsCanonical m q)
    (fine : 10 ^ 16 * 10 ^ unit ≤ (m : ℚ) * 2 ^ q)
    (low : 2 * ((m : ℚ) * 2 ^ q / 10 ^ unit) ≤ 2 * k + 1)
    (high : 2 * (k : ℚ) ≤ 2 * (m * 2 ^ q / 10 ^ unit) + 1) :
    RoundsTo ((k : ℚ) * 10 ^ unit) m q := by
  have digits := fine_of_canonical canonical
  have gap : (quartersBelow m q : ℚ) ≤ 2 := by exact_mod_cast quartersBelow_le m q
  have two : (0 : ℚ) < 2 ^ q := by positivity
  have ten : (0 : ℚ) < 10 ^ unit := by positivity
  -- in quarters of a step, half a unit is less than what lies below the double
  have small : 2 * ((10 : ℚ) ^ unit / 2 ^ q) < quartersBelow m q := by
    have step : 10 ^ 16 * ((10 : ℚ) ^ unit / 2 ^ q) ≤ m := by
      rwa [← mul_div_assoc, div_le_iff₀ two]
    linarith
  have value : (m : ℚ) * 2 ^ q / 10 ^ unit * (10 ^ unit / 2 ^ q) = m := by
    field_simp
  have point : (k : ℚ) * (10 ^ unit / 2 ^ q) = k * 10 ^ unit / 2 ^ q := by
    rw [mul_div_assoc]
  have units : (0 : ℚ) < 10 ^ unit / 2 ^ q := by positivity
  have low := mul_le_mul_of_nonneg_right low units.le
  have high := mul_le_mul_of_nonneg_right high units.le
  rw [add_mul, mul_assoc, mul_assoc, value, point, one_mul] at low
  rw [add_mul, mul_assoc, mul_assoc, value, point, one_mul] at high
  refine ⟨by linarith, by linarith, ?_⟩
  rintro (below | above)
  · linarith
  · linarith

/-- Where a double has seventeen digits in units, one of the whole numbers of units beside it rounds
to it. -/
theorem exists_beside {m : ℕ} {q unit : ℤ} (positive : 0 < m) (canonical : IsCanonical m q)
    (fine : 10 ^ 16 * 10 ^ unit ≤ (m : ℚ) * 2 ^ q) :
    ∃ k, ((Stretch.ofDouble m q).inUnits unit).nearestWhole? = some k := by
  have value := value_ofDouble m q unit
  generalize same : (Stretch.ofDouble m q).inUnits unit = s at value
  have denominator : 0 < s.denominator := by
    rw [← same]
    exact Nat.mul_pos (Nat.pow_pos two_pos) (Nat.pow_pos (by norm_num))
  have denominator' : (0 : ℚ) < s.denominator := by exact_mod_cast denominator
  have below : ((s.value / s.denominator : ℕ) : ℚ) ≤ (s.value : ℚ) / s.denominator :=
    Nat.cast_div_le
  have above : (s.value : ℚ) / s.denominator < (s.value / s.denominator : ℕ) + 1 := by
    rw [div_lt_iff₀ denominator']
    rw [mul_comm]
    exact_mod_cast Nat.lt_mul_div_succ s.value denominator
  rw [value] at below above
  rcases le_total (2 * ((m : ℚ) * 2 ^ q / 10 ^ unit)) (2 * (s.value / s.denominator : ℕ) + 1)
    with near | far
  · refine Stretch.exists_nearestWhole? (.inl rfl) ?_
    rw [← same, holds_iff positive, same]
    exact roundsTo_of_near canonical fine near (by linarith)
  · refine Stretch.exists_nearestWhole? (.inr rfl) ?_
    rw [← same, holds_iff positive, same]
    refine roundsTo_of_near canonical fine ?_ ?_
    · push_cast
      linarith
    · push_cast
      linarith

/-- The shortest decimal of a double rounds to it. -/
theorem roundsTo_shortest {m : ℕ} {q : ℤ} (positive : 0 < m) (canonical : IsCanonical m q) :
    RoundsTo (shortest m q).value m q := by
  have value := value_ofDouble m q 0
  have units : ∀ s : Stretch, s.inUnits 0 = s := fun s => by
    simp [Stretch.inUnits]
  rw [units, zpow_zero, div_one] at value
  have denominator : 0 < (Stretch.ofDouble m q).denominator := Nat.pow_pos two_pos
  have some : 0 < (Stretch.ofDouble m q).value :=
    Nat.mul_pos (by omega) (Nat.pow_pos two_pos)
  have leading := leadingPower_le some denominator
  rw [value] at leading
  unfold shortest
  simp only
  generalize leadingPower (Stretch.ofDouble m q).value (Stretch.ofDouble m q).denominator = power
    at leading
  -- the search has an end at the latest with the last number of digits
  have last : 10 ^ 16 * (10 : ℚ) ^ (power - 16) ≤ m * 2 ^ q := by
    refine le_trans (le_of_eq ?_) leading
    rw [zpow_sub₀ (by norm_num)]
    norm_num
    field_simp
  obtain ⟨k, at_last⟩ := exists_beside positive canonical last
  cases search : (List.range maxDigits).findSome? fun (n : ℕ) =>
      ((Stretch.ofDouble m q).inUnits (power - n)).nearestWhole?.map
        (Decimal.trim ⟨·, power - n⟩) with
  | none =>
    have missed := List.findSome?_eq_none_iff.1 search 16 (by decide)
    rw [show power - ((16 : ℕ) : ℤ) = power - 16 from rfl, at_last] at missed
    cases missed
  | some d =>
    obtain ⟨n, -, found⟩ := List.exists_of_findSome?_eq_some search
    obtain ⟨k, near, rfl⟩ := Option.map_eq_some_iff.1 found
    show RoundsTo (Decimal.trim ⟨k, power - n⟩).value m q
    rw [value_trim]
    exact (holds_iff positive ..).1 (Stretch.holds_of_nearestWhole? near)

end StockFlow.Number
