import StockFlow.Spec.Expression

/-!
# Pieces of a line

A line of a spec declares stocks and flows. A stock is written `Name`, `Name(initial, maximum)`
or `[Name]`; a flow `Kind(rate)` or just `rate`. Each piece can be read from its text and written
as text.
-/

namespace StockFlow.Spec

open StockFlow.Text

/-- A stock as it is written. -/
inductive StockPiece where
  | finite (name : String) (parameters : List Expression)
  | infinite (name : String)
  deriving DecidableEq, Repr

/-- A flow as it is written; its label is empty where there is none. -/
structure FlowPiece where
  label : String
  parameters : List Expression
  deriving DecidableEq, Repr

/-- One piece of a line. -/
inductive Piece where
  | stock (written : StockPiece)
  | flow (written : FlowPiece)
  /-- The arrow from one stock to the next. -/
  | direction
  /-- The mark between the stocks and their flow. -/
  | delimiter
  | comment (text : String)
  deriving DecidableEq, Repr

/-- A letter that may open a name. -/
def isNameStart (c : Char) : Bool :=
  ('a' ≤ c && c ≤ 'z') || ('A' ≤ c && c ≤ 'Z')

/-- A character that may follow in a name. -/
def isNamePart (c : Char) : Bool :=
  isNameStart c || isAsciiDigit c || c == '_'

/-- The form of names, as messages give it. -/
def namePattern : String :=
  "[a-zA-Z][a-zA-Z0-9_]*"

/-- The longest name at the front of a text, and what follows it. -/
def leadingName? : List Char → Option (List Char × List Char)
  | [] => none
  | c :: cs =>
    if isNameStart c then
      let (part, rest) := cs.span isNamePart
      some (c :: part, rest)
    else none

/-- A text that is a name. -/
def isName (cs : List Char) : Bool :=
  match leadingName? cs with
  | some (_, []) => true
  | _ => false

/-- What stands between an opening and a closing mark at the ends of a text. -/
def between? (opening closing : Char) : List Char → Option (List Char)
  | [] => none
  | c :: cs => if c = opening && cs.getLast? = some closing then some cs.dropLast else none

/-- Expressions parted by commas. -/
def expressions (cs : List Char) : Except Fault (List Expression) :=
  (cs.splitOn ',').mapM fun part => Expression.ofText (.ofList part)

/-- The parameters that a text gives in parentheses; an empty text gives none. -/
def parameters (cs : List Char) : Except Fault (List Expression) :=
  if cs.isEmpty then .ok []
  else
    match between? '(' ')' cs with
    | some inner => expressions inner
    | none => .error (.invalidParameters (.ofList cs) {})

/-- A name with or without parameters. -/
def call (cs : List Char) : Except Fault (String × List Expression) :=
  let refused := .error (.illegalName (.ofList cs) namePattern)
  match leadingName? cs with
  | none => refused
  | some (name, rest) =>
    if rest.isEmpty || (between? '(' ')' rest).isSome then
      (parameters rest).map (.ofList name, ·)
    else refused

/-- The stock that the characters of a text declare. -/
def StockPiece.ofChars (cs : List Char) : Except Fault StockPiece :=
  let cs := trimBy isBlank cs
  match between? '[' ']' cs with
  | some inner =>
    let name := trimBy isBlank inner
    if isName name then .ok (.infinite (.ofList name))
    else .error (.illegalName (.ofList name) namePattern)
  | none => (call cs).map fun (name, given) => .finite name given

/-- Whether a text reads as a label with parameters. -/
def isLabeled (cs : List Char) : Bool :=
  match leadingName? cs with
  | some (_, rest) => (between? '(' ')' rest).isSome
  | none => false

/-- The flow that the characters of a text declare. -/
def FlowPiece.ofChars (cs : List Char) : Except Fault FlowPiece :=
  let cs := trimBy isBlank cs
  if isLabeled cs then (call cs).map fun (label, given) => ⟨label, given⟩
  else (expressions cs).map (⟨"", ·⟩)

/-- The stock that a text declares. -/
def StockPiece.ofText (s : String) : Except Fault StockPiece :=
  StockPiece.ofChars s.toList

/-- The flow that a text declares. -/
def FlowPiece.ofText (s : String) : Except Fault FlowPiece :=
  FlowPiece.ofChars s.toList

/-- Parameters as text, parted by commas. -/
def bareParameters (given : List Expression) : String :=
  ", ".intercalate (given.map Expression.text)

/-- Parameters as text in parentheses; none leave no trace. -/
def wrappedParameters (given : List Expression) : String :=
  if given.isEmpty then "" else "(" ++ bareParameters given ++ ")"

/-- A stock as text. -/
def StockPiece.text : StockPiece → String
  | finite name given => name ++ wrappedParameters given
  | infinite name => "[" ++ name ++ "]"

/-- A flow as text. -/
def FlowPiece.text (flow : FlowPiece) : String :=
  flow.label ++
    if flow.label = "" then bareParameters flow.parameters else wrappedParameters flow.parameters

/-- A piece as text. -/
def Piece.text : Piece → String
  | stock written => written.text
  | flow written => written.text
  | direction => ">"
  | delimiter => "@"
  | comment text => "#" ++ text

end StockFlow.Spec
