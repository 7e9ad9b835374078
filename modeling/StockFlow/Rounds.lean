import StockFlow.Datum
import StockFlow.Text.Blank

/-!
# Round counts

A round count is a whole number that is not negative, a double that equals one, or a text of
decimal digits with at most zeros behind a point. The strict reading refuses anything else; the
lenient one takes a default in its place.
-/

namespace StockFlow.Rounds

open StockFlow.Text

/-- Digits of any script, perhaps followed by a point and ASCII zeros. -/
def isCountText (cs : List Char) : Bool :=
  match cs.span isDecimalDigit with
  | ([], _) => false
  | (_, []) => true
  | (_, '.' :: zeros) => !zeros.isEmpty && zeros.all (· == '0')
  | _ => false

/-- The count of a whole number. -/
def ofWhole (shown : String) (n : Int) : Except Fault Nat :=
  if n < 0 then .error (.badCount (.negative shown)) else .ok n.toNat

/-- The count of a double. -/
def ofDouble (x : Float) : Except Fault Nat :=
  match Number.whole? x with
  | some n => ofWhole (Number.text x) n
  | none => .error (.badCount (.fractional (Number.text x)))

/-- The count that a text gives, read as a double. -/
def ofText (s : String) : Except Fault Nat :=
  let s := strip s
  if s = "" then .error (.badCount .blank)
  else if s.toList.head? = some '-' then .error (.badCount (.negative s))
  else if !isCountText s.toList then .error (.badCount (.malformed s))
  else
    match (Number.ofText? s).bind Number.whole? with
    | some n => .ok n.toNat
    | none => .error .countTooLarge

/-- The count that a given value stands for. -/
def ofDatum : Datum → Except Fault Nat
  | .whole n => ofWhole (toString n) n
  | .real x => ofDouble x
  | .text s => ofText s
  | d => .error (.badCount (.notACount d.typeName))

/-- The count where none is given. -/
def default : Nat :=
  10

/-- The count that a text gives, or `fallback`, be that a count or not, where it gives none. A count
beyond the range of doubles is a fault all the same. -/
def lenient {β : Type} [NatCast β] (s : String) (fallback : β) : Except Fault β :=
  if s = "" then .ok fallback
  else
    match ofText s with
    | .ok n => .ok n
    | .error (.badCount _) => .ok fallback
    | .error fault => .error fault

end StockFlow.Rounds
