import StockFlow.Number.Binary64

/-!
# The shortest decimal of a double

Of all decimals that read back as a given double, the one with the fewest digits, and of those
the nearest. The search compares exact natural numbers: a double, the two ends of the stretch of
reals that round to it, and the decimal grids of growing fineness.
-/

namespace StockFlow.Number

/-- The number `digits * 10 ^ exponent`. -/
structure Decimal where
  digits : Nat
  exponent : Int
  deriving DecidableEq, Repr

/-- The reals that round to `value`, as numerators over one denominator. -/
structure Stretch where
  low : Nat
  value : Nat
  high : Nat
  denominator : Nat
  /-- Whether the ends themselves round to `value`. -/
  closed : Bool
  deriving Repr

/-- The stretch of the positive double `mantissa * 2 ^ exponent`: half-way to its neighbours, of
which the one below is nearer when the mantissa is the least of its binade. -/
def Stretch.ofDouble (mantissa : Nat) (exponent : Int) : Stretch :=
  let below := if mantissa = hiddenBit && -1074 < exponent then 1 else 2
  let scale := Nat.pow 2 (exponent - 2).toNat
  { low := (4 * mantissa - below) * scale
    value := 4 * mantissa * scale
    high := (4 * mantissa + 2) * scale
    denominator := .pow 2 (2 - exponent).toNat
    closed := mantissa % 2 = 0 }

/-- The same stretch measured in units of `10 ^ exponent`. -/
def Stretch.inUnits (s : Stretch) (exponent : Int) : Stretch :=
  let up := Nat.pow 10 (-exponent).toNat
  { low := s.low * up
    value := s.value * up
    high := s.high * up
    denominator := s.denominator * .pow 10 exponent.toNat
    closed := s.closed }

/-- Whether the whole number `k` lies in the stretch. -/
def Stretch.holds (s : Stretch) (k : Nat) : Bool :=
  let point := k * s.denominator
  if s.closed then s.low ≤ point && point ≤ s.high else s.low < point && point < s.high

/-- The whole number in the stretch nearest to its value, of the two beside it; a tie is even. -/
def Stretch.nearestWhole? (s : Stretch) : Option Nat :=
  let below := s.value / s.denominator
  let above := below + 1
  let rest := 2 * (s.value % s.denominator)
  match s.holds below, s.holds above with
  | true, true =>
    if rest < s.denominator || (rest = s.denominator && below % 2 = 0) then some below
    else some above
  | true, false => some below
  | false, true => some above
  | false, false => none

/-- How many decimal digits a natural number has. -/
def digitCount (n : Nat) : Nat :=
  (Nat.toDigits 10 n).length

/-- The power of ten of the leading digit of `numerator / denominator`. -/
def leadingPower (numerator denominator : Nat) : Int :=
  if denominator ≤ numerator then digitCount (numerator / denominator) - 1
  else -digitCount ((denominator - 1) / numerator)

/-- Drops zeros from the end of the digits. -/
def Decimal.trim (d : Decimal) : Decimal :=
  go d.digits d.exponent d.digits
where
  /-- The fuel is the number itself, which has fewer zeros than that. -/
  go (digits : Nat) (exponent : Int) : Nat → Decimal
    | 0 => ⟨digits, exponent⟩
    | fuel + 1 =>
      if digits % 10 = 0 then go (digits / 10) (exponent + 1) fuel else ⟨digits, exponent⟩

/-- Seventeen digits always tell a double from its neighbours. -/
def maxDigits : Nat := 17

/-- The shortest decimal that reads back as the positive double `mantissa * 2 ^ exponent`. -/
def shortest (mantissa : Nat) (exponent : Int) : Decimal :=
  let s := Stretch.ofDouble mantissa exponent
  let power := leadingPower s.value s.denominator
  let found := (List.range maxDigits).findSome? fun (n : Nat) =>
    let unit := power - n
    (s.inUnits unit).nearestWhole?.map (Decimal.trim ⟨·, unit⟩)
  found.getD ⟨mantissa, exponent⟩

end StockFlow.Number
