import StockFlow.Number.Rounding
import StockFlow.Text.Blank
import StockFlow.Text.Digit

/-!
# Reading a number

The texts that denote a double: an optional sign, then digits with an optional point and
exponent, or a name for infinity or for no number. Blanks may surround it, digits may be of any
script, and single underscores may part digits.
-/

namespace StockFlow.Number

open StockFlow.Text

/-- Blanks that may surround a number: the ASCII ones but for the separator controls, and all
others. -/
def isNumberBlank (c : Char) : Bool :=
  isBlank c && !(28 ≤ c.toNat && c.toNat ≤ 31)

/-- A digit of any script as the ASCII digit of its value. -/
def asciiDigit (c : Char) : Char :=
  match digitValue? c with
  | some d => Char.ofNat (48 + d)
  | none => c

/-- Removes the underscores of a text in which each stands between two digits. -/
def joinDigits? (afterDigit : Bool) : List Char → Option (List Char)
  | [] => some []
  | '_' :: c :: cs =>
    if afterDigit && isAsciiDigit c then (joinDigits? true cs).map (c :: ·) else none
  | c :: cs =>
    if c = '_' then none else (joinDigits? (isAsciiDigit c) cs).map (c :: ·)

/-- The sign in front of a text, `true` for minus, and the rest of the text. -/
def signed : List Char → Bool × List Char
  | '-' :: cs => (true, cs)
  | '+' :: cs => (false, cs)
  | cs => (false, cs)

/-- The digits at the front of a text and what follows them. -/
def digitRun (cs : List Char) : List Char × List Char :=
  cs.span isAsciiDigit

/-- The power of ten after the digits of a number: nothing, or `e` and a whole number. -/
def exponent? : List Char → Option Int
  | [] => some 0
  | c :: cs =>
    if c = 'e' || c = 'E' then
      let (negative, cs) := signed cs
      let (digits, rest) := digitRun cs
      if digits.isEmpty || !rest.isEmpty then none
      else
        let size : Int := digitsValue digits
        some (if negative then -size else size)
    else none

/-- An unsigned number in digits. -/
def unsigned? (cs : List Char) : Option Float :=
  let (whole, rest) := digitRun cs
  let (fraction, rest) :=
    match rest with
    | '.' :: rest => digitRun rest
    | rest => ([], rest)
  if whole.isEmpty && fraction.isEmpty then none
  else
    (exponent? rest).map fun e => ofDecimal (digitsValue (whole ++ fraction)) (e - fraction.length)

/-- A name for infinity or for no number, in any case. -/
def named? (cs : List Char) : Option Float :=
  match String.ofList (cs.map Char.toLower) with
  | "inf" | "infinity" => some (1.0 / 0.0)
  | "nan" => some (0.0 / 0.0)
  | _ => none

/-- The double that a text denotes. -/
def ofText? (s : String) : Option Float := do
  let plain ← joinDigits? false ((trimBy isNumberBlank s.toList).map asciiDigit)
  let (negative, cs) := signed plain
  let size ← named? cs <|> unsigned? cs
  return if negative then -size else size

end StockFlow.Number
