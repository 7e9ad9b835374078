import StockFlow.Number.Binary64

/-!
# Rounding to doubles

The double nearest to an exact number. Around a number the doubles form an even grid; the number
is measured in steps of that grid, and of two equally near grid points the even one is taken.
-/

namespace StockFlow.Number

/-- The whole number nearest to `numerator / denominator`; a tie goes to the even neighbour. -/
def nearestWhole (numerator denominator : Nat) : Nat :=
  let below := numerator / denominator
  let rest := 2 * (numerator % denominator)
  if rest < denominator || (rest = denominator && below % 2 = 0) then below else below + 1

/-- The nearest whole number is at most half a unit away. -/
theorem nearestWhole_bounds (numerator : Nat) {denominator : Nat} (h : 0 < denominator) :
    2 * numerator ≤ (2 * nearestWhole numerator denominator + 1) * denominator ∧
      2 * nearestWhole numerator denominator * denominator ≤ 2 * numerator + denominator := by
  have whole := Nat.div_add_mod numerator denominator
  have small := Nat.mod_lt numerator h
  have swap : numerator / denominator * denominator = denominator * (numerator / denominator) :=
    Nat.mul_comm ..
  unfold nearestWhole
  simp only
  split
  · rename_i near
    have near : 2 * (numerator % denominator) ≤ denominator := by
      simp only [Bool.or_eq_true, decide_eq_true_eq, Bool.and_eq_true] at near
      omega
    simp only [Nat.add_mul, Nat.mul_assoc]
    omega
  · rename_i far
    have far : denominator ≤ 2 * (numerator % denominator) := by
      simp only [Bool.or_eq_true, decide_eq_true_eq, Bool.and_eq_true] at far
      omega
    simp only [Nat.mul_add, Nat.add_mul, Nat.mul_assoc]
    omega

/-- The power of two of the leading bit of the positive number `numerator / denominator`. -/
def leadingBit (numerator denominator : Nat) : Int :=
  let guess : Int := numerator.log2 - denominator.log2
  if denominator * .pow 2 guess.toNat ≤ numerator * .pow 2 (-guess).toNat then guess else guess - 1

/-- The power of two that parts the doubles around `numerator / denominator`. -/
def gridExponent (numerator denominator : Nat) : Int :=
  max (leadingBit numerator denominator - 52) (-1074)

/-- The exponent and fraction fields of infinity. -/
def infinityBits : Nat :=
  2047 * hiddenBit

/-- The exponent and fraction fields of the double nearest to the positive number
`numerator / denominator`. The steps on the grid fill both fields at once: where the rounded
mantissa has outgrown its binade, the carry raises the exponent. -/
def nearestBits (numerator denominator : Nat) : Nat :=
  let q := gridExponent numerator denominator
  let steps := nearestWhole (numerator * .pow 2 (-q).toNat) (denominator * .pow 2 q.toNat)
  min infinityBits ((q + 1074).toNat * hiddenBit + steps)

/-- The double nearest to `numerator / denominator`, infinite beyond the largest. -/
def nearest (numerator denominator : Nat) : Float :=
  if numerator = 0 then 0.0 else .ofBits (.ofNat (nearestBits numerator denominator))

/-- The double nearest to `mantissa * 10 ^ exponent`, infinite beyond the largest. Exponents far
outside the range of doubles are not worked out. -/
def ofDecimal (mantissa : Nat) (exponent : Int) : Float :=
  let size := (toString mantissa).length + exponent
  if mantissa = 0 || size < -400 then 0.0
  else if 400 < size then .ofBits (.ofNat infinityBits)
  else nearest (mantissa * .pow 10 exponent.toNat) (.pow 10 (-exponent).toNat)

/-- The double nearest to a whole number, if that is finite. -/
def ofWhole? (n : Int) : Option Float :=
  let size := nearest n.natAbs 1
  if size.isInf then none else some (if n < 0 then -size else size)

/-- The greatest whole double that is at most `x`. -/
def floor (x : Float) : Float :=
  match meaning x with
  | .finite negative m q =>
    let unit := Nat.pow 2 (-q).toNat
    if m % unit = 0 then x
    else if negative then -nearest (m / unit + 1) 1
    else nearest (m / unit) 1
  | _ => x

end StockFlow.Number
