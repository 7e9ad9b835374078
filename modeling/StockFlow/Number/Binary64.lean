/-!
# Doubles as exact numbers

A finite double is a whole number times a power of two. Everything that has to be exact about a
double, its digits and its whole part, starts from that form.
-/

namespace StockFlow.Number

/-- What a double stands for. -/
inductive Meaning where
  | nan
  | infinite (negative : Bool)
  /-- `± mantissa * 2 ^ exponent`; the sign of zero is kept. -/
  | finite (negative : Bool) (mantissa : Nat) (exponent : Int)
  deriving DecidableEq, Repr

/-- The mantissa of every normal double has this bit as its highest. -/
def hiddenBit : Nat := .pow 2 52

/-- Reads the sign, exponent and fraction fields of a word of 64 bits. -/
def Meaning.ofBits (bits : Nat) : Meaning :=
  let negative := bits / .pow 2 63 % 2 = 1
  let field := bits / hiddenBit % 2048
  let fraction := bits % hiddenBit
  if field = 2047 then
    if fraction = 0 then .infinite negative else .nan
  else if field = 0 then .finite negative fraction (-1074)
  else .finite negative (hiddenBit + fraction) (field - 1075)

/-- What the double `x` stands for. -/
def meaning (x : Float) : Meaning :=
  .ofBits x.toBits.toNat

/-- The whole number that a finite double equals, if it is one. -/
def Meaning.whole? : Meaning → Option Int
  | .nan | .infinite _ => none
  | .finite negative m q =>
    let size? : Option Nat :=
      if 0 ≤ q then some (m * .pow 2 q.toNat)
      else if m % .pow 2 (-q).toNat = 0 then some (m / .pow 2 (-q).toNat)
      else none
    size?.map fun size => if negative then -(size : Int) else size

/-- The whole number that a double equals, if it is one. -/
def whole? (x : Float) : Option Int :=
  (meaning x).whole?

end StockFlow.Number
