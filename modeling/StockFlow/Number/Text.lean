import StockFlow.Number.Shortest

/-!
# The text of a number

Doubles are written with the fewest digits that read back, always with a point or an exponent.
Numbers from `0.0001` up to `10 ^ 16` are written in place, others with an exponent of at least
two digits.
-/

namespace StockFlow.Number

/-- The characters of a natural number. -/
def digitChars (n : Nat) : List Char :=
  Nat.toDigits 10 n

/-- A decimal written in place, with at least one digit on each side of the point. -/
def Decimal.positional (d : Decimal) : List Char :=
  let digits := digitChars d.digits
  let point := digits.length + d.exponent
  if point ≤ 0 then '0' :: '.' :: List.replicate (-point).toNat '0' ++ digits
  else if d.exponent < 0 then digits.take point.toNat ++ '.' :: digits.drop point.toNat
  else digits ++ List.replicate d.exponent.toNat '0' ++ ['.', '0']

/-- The power of ten of a decimal's leading digit. -/
def Decimal.power (d : Decimal) : Int :=
  (digitChars d.digits).length + d.exponent - 1

/-- An exponent with its sign and at least two digits. -/
def exponentChars (e : Int) : List Char :=
  let digits := digitChars e.natAbs
  (if e < 0 then '-' else '+') :: (if digits.length < 2 then '0' :: digits else digits)

/-- A decimal with one digit before the point and an exponent behind. -/
def Decimal.scientific (d : Decimal) : List Char :=
  let mantissa :=
    match digitChars d.digits with
    | first :: second :: rest => first :: '.' :: second :: rest
    | short => short
  mantissa ++ 'e' :: exponentChars d.power

/-- A decimal in the notation that its size asks for. -/
def Decimal.chars (d : Decimal) : List Char :=
  if -4 ≤ d.power && d.power < 16 then d.positional else d.scientific

/-- The text of what a double stands for, its finite size written by `write`. -/
def Meaning.textBy (write : Decimal → List Char) : Meaning → String
  | .nan => "nan"
  | .infinite negative => if negative then "-inf" else "inf"
  | .finite negative m q =>
    let size := if m = 0 then ['0', '.', '0'] else write (shortest m q)
    String.ofList (if negative then '-' :: size else size)

/-- The text of a double. -/
def text (x : Float) : String :=
  (meaning x).textBy Decimal.chars

/-- The text of a double written in place, however long. -/
def positionalText (x : Float) : String :=
  (meaning x).textBy Decimal.positional

/-- The text of a double that drops the fraction of whole numbers and the sign of zero. -/
def plainText (x : Float) : String :=
  match whole? x with
  | some n => toString n
  | none => text x

end StockFlow.Number
