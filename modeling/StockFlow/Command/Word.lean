import StockFlow.Text.Digit

/-!
# Words of a command line

Each argument is an operand, a switch, or a word that looks like a switch and is none. A word of
two dashes makes operands of all that follow it. A switch may have its argument attached, and one
that is spelled by a letter may have the letters of others attached.
-/

namespace StockFlow.Command

open StockFlow.Text

/-- What can be switched on or set. -/
inductive Switch where
  | help
  | rounds
  | csv
  | json
  | check
  | verbose
  deriving DecidableEq, Repr

namespace Switch

/-- The spellings of a switch. -/
def spellings : Switch → List String
  | help => ["-h", "--help"]
  | rounds => ["-r", "--rounds"]
  | csv => ["--csv"]
  | json => ["--json"]
  | check => ["--check"]
  | verbose => ["-v", "--verbose"]

/-- All switches. -/
def all : List Switch :=
  [help, rounds, csv, json, check, verbose]

/-- The switch of a spelling. -/
def ofSpelling? (s : String) : Option Switch :=
  all.find? (·.spellings.contains s)

/-- The switch of a letter behind a dash. -/
def ofLetter? (letter : Char) : Option Switch :=
  ofSpelling? (.ofList ['-', letter])

/-- A switch as messages name it. -/
def title (switch : Switch) : String :=
  "/".intercalate switch.spellings

/-- Whether the switch has an argument. -/
def takesArgument : Switch → Bool
  | rounds => true
  | _ => false

end Switch

/-- A text attached to a switch: behind an equals sign, or directly behind a letter. -/
structure Attached where
  text : String
  /-- Whether the switch is spelled by a letter. -/
  toLetter : Bool
  deriving DecidableEq, Repr

/-- An argument of the command line by its looks. -/
inductive Word where
  | operand (text : String)
  | switch (asked : Switch) (attached : Option Attached)
  | unknown (text : String)
  /-- Two dashes, which are followed by operands only. -/
  | divider
  deriving DecidableEq, Repr

/-- What stands before and behind the first equals sign. -/
def atEquals? (cs : List Char) : Option (String × String) :=
  match cs.span (· ≠ '=') with
  | (front, _ :: back) => some (.ofList front, .ofList back)
  | _ => none

/-- A text without a line feed at its end. -/
def dropLineFeed (cs : List Char) : List Char :=
  if cs.getLast? = some '\n' then cs.dropLast else cs

/-- A negative number, which is no switch; a line may end behind it. -/
def isNegativeNumber (cs : List Char) : Bool :=
  match dropLineFeed cs with
  | '-' :: cs =>
    match cs.span isDecimalDigit with
    | (whole, []) => !whole.isEmpty
    | (_, '.' :: fraction) => !fraction.isEmpty && fraction.all isDecimalDigit
    | _ => false
  | _ => false

/-- The switch that a word spells in front of an equals sign. -/
def Word.byEquals? (s : String) : Option Word :=
  (atEquals? s.toList).bind fun (name, text) =>
    (Switch.ofSpelling? name).map (.switch · (some ⟨text, name.length = 2⟩))

/-- The switch of a word's first letter, to which the rest is attached. -/
def Word.byLetter? (s : String) : Option Word :=
  match s.toList with
  | _ :: letter :: rest =>
    (Switch.ofLetter? letter).map (.switch · (some ⟨.ofList rest, true⟩))
  | _ => none

/-- What a word with a dash in front that is no switch by itself may be: a switch with something
attached, a negative number, or a text with a space. -/
def Word.ofDashed (s : String) : Word :=
  match byEquals? s <|> byLetter? s with
  | some word => word
  | none => if isNegativeNumber s.toList || s.toList.contains ' ' then .operand s else .unknown s

/-- The word that an argument is. -/
def Word.ofText (s : String) : Word :=
  if s = "--" then .divider
  else if s = "-" || s.toList.head? ≠ some '-' then .operand s
  else
    match Switch.ofSpelling? s with
    | some found => .switch found none
    | none => .ofDashed s

/-- The words of the arguments. -/
def words : List String → List Word
  | [] => []
  | s :: rest =>
    match Word.ofText s with
    | .divider => .divider :: rest.map .operand
    | word => word :: words rest

end StockFlow.Command
