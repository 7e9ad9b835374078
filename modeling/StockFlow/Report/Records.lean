import StockFlow.Report.Run
import StockFlow.Rounds

/-!
# Records

Links, issues, given values and run settings as JSON. Fields that hold their default are left out.
-/

namespace StockFlow

open StockFlow.Report

/-- A link as JSON. -/
def Reference.Link.json (link : Reference.Link) : Json :=
  .record [
    ("from", .text link.source),
    ("to", .text link.target),
    ("kind", .text link.kind.text)]

/-- An issue as JSON. -/
def Issue.json (issue : Issue) : Json :=
  .record (
    [("severity", .text issue.severity), ("message", .text issue.message)] ++
    (issue.stock?.map fun name => ("variable", Json.text name)).toList ++
    (issue.code.map fun code => ("code", Json.text code.label)).toList)

/-- A given value as JSON. -/
def Datum.json : Datum → Json
  | whole n => .whole n
  | real x => .ofDouble x
  | text s => .text s
  | truth b => .truth b
  | nothing => .null
  | sequence => .list []

/-- A value recorded in a run as JSON, which has to be a double. -/
def Datum.entryJson : Datum → Except Fault Json
  | real x => .ok (.ofDouble x)
  | whole n =>
    match Number.ofWhole? n with
    | some _ => .error (.notADouble (whole n).typeName)
    | none => .error .wholeTooLarge
  | truth b => .error (.notADouble (truth b).typeName)
  | d => .error (.notASize d.typeName)

/-- A value recorded in a run as a quantity; nothing is no number. -/
def Datum.amount : Datum → Except Fault Float
  | nothing => .ok Quantity.nan
  | d => d.toDouble

/-- How a model is run and shown, as it was asked for: nothing is refused before it is used. -/
structure Settings where
  rounds : Datum := .whole Rounds.default
  separator : Datum := .text "\t"
  pad : Datum := .truth true
  /-- The form of the output, a table or JSON. -/
  output : Datum := .text "table"
  deriving Repr

/-- Settings with one of them given by its name. -/
def Settings.set (settings : Settings) (name : String) (value : Datum) : Except Fault Settings :=
  match name with
  | "rounds" => .ok { settings with rounds := value }
  | "sep" => .ok { settings with separator := value }
  | "pad" => .ok { settings with pad := value }
  | "output" => .ok { settings with output := value }
  | _ => .error (.unknownSetting name)

/-- The settings that are given by their names, the others at their defaults. -/
def Settings.ofGiven (given : Keyed Datum) : Except Fault Settings :=
  given.foldlM (fun settings (name, value) => settings.set name value) {}

/-- A field, unless it holds its default. -/
def Settings.field (name : String) (usual value : Datum) : List (String × Json) :=
  if value.same usual then [] else [(name, value.json)]

/-- Settings as JSON. -/
def Settings.json (settings : Settings) : Json :=
  let usual : Settings := {}
  .record (
    Settings.field "rounds" usual.rounds settings.rounds ++
    Settings.field "sep" usual.separator settings.separator ++
    Settings.field "pad" usual.pad settings.pad ++
    Settings.field "output" usual.output settings.output)

end StockFlow
