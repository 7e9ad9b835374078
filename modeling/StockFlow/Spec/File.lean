import StockFlow.Spec.Build

/-!
# Spec files

A spec kept in a file gives its model the name of the file, without the extension.
-/

namespace StockFlow

/-- The name of a file without its extension. A dot at either end of the name opens none. -/
def fileStem (file : String) : String :=
  let name := (file.toList.splitOn '/').getLast?.getD []
  let stem := (name.reverse.dropWhile (· ≠ '.')).tail.reverse
  if stem.isEmpty || name.getLast? = some '.' then .ofList name else .ofList stem

/-- The text of a file with its line ends unified. -/
def fileText (content : String) : String :=
  .ofList (Text.unifyNewlines content.toList)

/-- The model of a spec file. -/
def Model.ofFile {α : Type} [Quantity α] (file content : String) : Except Fault (Model α) :=
  Model.ofText (fileStem file) (fileText content)

end StockFlow
