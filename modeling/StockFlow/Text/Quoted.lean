import StockFlow.Text.Hex
import StockFlow.Text.Printable

/-!
# Quoted text

The way a name or a text is shown inside a message: between quotes, with everything that would
not show as itself written as an escape.
-/

namespace StockFlow.Text

/-- The number of an unprintable character: two, four or eight digits, as few as hold it. -/
def numericEscape (c : Char) : List Char :=
  let n := c.toNat
  if n < 0x100 then '\\' :: 'x' :: hexDigits 2 n
  else if n < 0x10000 then '\\' :: 'u' :: hexDigits 4 n
  else '\\' :: 'U' :: hexDigits 8 n

/-- How one character is written between the given quotes. -/
def quoteChar (quote c : Char) : List Char :=
  if c = quote || c = '\\' then ['\\', c]
  else if c = '\n' then ['\\', 'n']
  else if c = '\r' then ['\\', 'r']
  else if c = '\t' then ['\\', 't']
  else if isPrintable c then [c]
  else numericEscape c

/-- Single quotes, unless the text holds one and no double quote. -/
def quoteFor (cs : List Char) : Char :=
  if cs.contains '\'' && !cs.contains '"' then '"' else '\''

/-- A text between quotes. -/
def quoted (s : String) : String :=
  let quote := quoteFor s.toList
  String.ofList (quote :: s.toList.flatMap (quoteChar quote) ++ [quote])

/-- A list of texts, each between quotes. -/
def quotedList (texts : List String) : String :=
  "[" ++ ", ".intercalate (texts.map quoted) ++ "]"

/-- Named entries in braces, the names between quotes and the entries written by `write`. -/
def quotedEntries {α : Type} (write : α → String) (entries : List (String × α)) : String :=
  "\x7b" ++ ", ".intercalate (entries.map fun (name, a) => quoted name ++ ": " ++ write a) ++ "\x7d"

end StockFlow.Text
