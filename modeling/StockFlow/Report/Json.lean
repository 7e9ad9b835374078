import StockFlow.Number.Text
import StockFlow.Text.Hex

/-!
# JSON

Values of the JSON format and their text, on one line or indented. Texts are written in ASCII:
other characters are escaped by their UTF-16 units.
-/

namespace StockFlow.Report

/-- A JSON value. Whole numbers and doubles are told apart. -/
inductive Json where
  | null
  | whole (n : Int)
  | real (x : Float)
  | text (s : String)
  | truth (b : Bool)
  | list (items : List Json)
  | record (fields : List (String × Json))

namespace Json

/-- The escape of one UTF-16 unit. -/
def unitEscape (unit : Nat) : List Char :=
  '\\' :: 'u' :: Text.hexDigits 4 unit

/-- The escape of a character: one unit, or a pair of surrogates. -/
def charEscape (c : Char) : List Char :=
  let n := c.toNat
  if n < 0x10000 then unitEscape n
  else unitEscape (0xD800 + (n - 0x10000) / 1024) ++ unitEscape (0xDC00 + (n - 0x10000) % 1024)

/-- How one character of a text is written. -/
def writeChar (c : Char) : List Char :=
  if c = '"' || c = '\\' then ['\\', c]
  else if c = '\n' then ['\\', 'n']
  else if c = '\r' then ['\\', 'r']
  else if c = '\t' then ['\\', 't']
  else if c = '\x0c' then ['\\', 'f']
  else if c = '\x08' then ['\\', 'b']
  else if 32 ≤ c.toNat && c.toNat < 127 then [c]
  else charEscape c

/-- A text between double quotes. -/
def writeText (s : String) : String :=
  String.ofList ('"' :: s.toList.flatMap writeChar ++ ['"'])

/-- The break in front of an item at a depth; nothing on one line. -/
def lineBreak (indent : Option Nat) (depth : Nat) : String :=
  match indent with
  | none => ""
  | some width => String.ofList ('\n' :: List.replicate (width * depth) ' ')

/-- What stands between two items at a depth. -/
def separator (indent : Option Nat) (depth : Nat) : String :=
  match indent with
  | none => ", "
  | some _ => "," ++ lineBreak indent depth

/-- Written items between an opening and a closing mark. -/
def enclose (indent : Option Nat) (depth : Nat) (opening closing : String) (items : List String) :
    String :=
  if items.isEmpty then opening ++ closing
  else
    opening ++ lineBreak indent (depth + 1) ++ (separator indent (depth + 1)).intercalate items ++
      lineBreak indent depth ++ closing

mutual

/-- The text of a value at a depth. -/
def writeAt (indent : Option Nat) (depth : Nat) : Json → String
  | null => "null"
  | whole n => toString n
  | real x => Number.text x
  | text s => writeText s
  | truth b => if b then "true" else "false"
  | list items => enclose indent depth "[" "]" (writeItems indent (depth + 1) items)
  | record fields => enclose indent depth "\x7b" "\x7d" (writeFields indent (depth + 1) fields)

/-- The texts of the items of a list. -/
def writeItems (indent : Option Nat) (depth : Nat) : List Json → List String
  | [] => []
  | item :: rest => writeAt indent depth item :: writeItems indent depth rest

/-- The texts of the fields of a record. -/
def writeFields (indent : Option Nat) (depth : Nat) : List (String × Json) → List String
  | [] => []
  | (name, value) :: rest =>
    (writeText name ++ ": " ++ writeAt indent depth value) :: writeFields indent depth rest

end

/-- The text of a value, indented by a width for each depth or on one line. -/
def write (indent : Option Nat) (value : Json) : String :=
  value.writeAt indent 0

/-- A double: whole ones as whole numbers, those without a JSON number as text. -/
def ofDouble (x : Float) : Json :=
  match Number.meaning x with
  | .finite negative m q =>
    match (Number.Meaning.finite negative m q).whole? with
    | some n => whole n
    | none => real x
  | _ => text (Number.text x)

end Json

end StockFlow.Report
