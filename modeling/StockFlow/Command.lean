import StockFlow.Command.Folder
import StockFlow.Command.Log
import StockFlow.Command.Options
import StockFlow.Report.Records
import StockFlow.Spec.File

/-!
# The command

The command reads a spec from a file or the standard input, and either runs its model and shows
the run as a table or as JSON, or checks it and shows its issues. What it writes and how it exits
is a function of its arguments and what it can read.
-/

namespace StockFlow.Command

open StockFlow.Report

/-- How the command ends. -/
structure Ending where
  status : Nat
  output : String := ""
  /-- What is logged on the way. -/
  log : List Event := []
  /-- What is written to the standard error behind the log. -/
  complaint : String := ""

/-- A text on a line of its own. -/
def lineOf (s : String) : String :=
  s ++ "\n"

/-- The name under which the command complains about its arguments. -/
def programName : String :=
  "systems-run"

/-- Ends with a complaint about the spec. -/
def fail (message : String) : Ending :=
  { status := 1, complaint := lineOf ("error: " ++ message) }

/-- Ends with a fault: one of the model is complained about on one line, others are passed on. -/
def failBy (fault : Fault) : Except Fault Ending :=
  if fault.isOfModel then .ok (fail (Text.oneLine fault.message)) else .error fault

/-- An issue on a line of its own. -/
def issueLine (issue : Issue) : String :=
  let place :=
    match issue.stock? with
    | none | some "" => ""
    | some name => " [" ++ name ++ "]"
  lineOf (issue.severity ++ place ++ ": " ++ issue.message)

/-- The issues of a model as output. -/
def showIssues (json : Bool) (issues : List Issue) : String :=
  if json then lineOf ((Json.list (issues.map Issue.json)).write (some 2))
  else if issues.isEmpty then lineOf "No issues found."
  else String.join (issues.map issueLine)

/-- Checks a model; errors show in the status. -/
def check (options : Options) (m : Model Float) : Except Fault Ending :=
  match m.check with
  | .error fault => failBy fault
  | .ok issues => .ok {
      status := if issues.any Issue.isError then 1 else 0
      output := showIssues options.json issues }

/-- The layout of tables. -/
def layout (options : Options) : Layout :=
  if options.csv then { separator := ",", pad := false } else {}

/-- How the command is used. -/
def help : String :=
  String.join <| List.map lineOf [
    "usage: " ++ programName ++ " [-h] [-r ROUNDS] [--csv] [--json] [--check] [-v] [spec]",
    "",
    "Run a stock and flow spec",
    "",
    "positional arguments:",
    "  spec                  Spec file to run (default: read stdin)",
    "",
    "options:",
    "  -h, --help            show this help message and exit",
    "  -r ROUNDS, --rounds ROUNDS",
    "                        Number of rounds to simulate (default: $SYSTEMS_ROUNDS",
    "                        or 10)",
    "  --csv                 Render comma separated values without padding",
    "  --json                Print results as JSON",
    "  --check               Report model issues instead of running",
    "  -v, --verbose         Enable debug logging"]

/-- A run as output. -/
def showRun (options : Options) (run : Run Float) : Except Fault String :=
  if options.json then .ok (lineOf (run.json.write (some 2)))
  else (run.table (layout options)).map lineOf

/-- Runs a model. -/
def run (options : Options) (m : Model Float) : Except Fault Ending :=
  let result := do showRun options (← m.getRun (← options.count) [])
  match result with
  | .error fault => failBy fault
  | .ok output => .ok { status := 0, output }

/-- Does what the options ask for with the text of a spec. -/
def process (options : Options) (spec : String) : Except Fault Ending :=
  match Model.ofText "" spec with
  | .error fault => failBy fault
  | .ok m => if options.check then check options m else run options m

/-- What happens while the text of a spec is processed. -/
def events (options : Options) (spec : String) : List Event :=
  Event.ofSpec spec ++
    match Model.ofText "" spec with
    | .error _ => []
    | .ok m =>
      if options.check then Event.ofCheck m
      else (options.rounds.map (Event.ofRun m)).getD []

/-- The options that the environment and the arguments ask for. No file has a NUL in its name. -/
def readOptions (environmentRounds : String) (arguments : List String) :
    Except Refusal Options := do
  let rounds ← (Rounds.lenient environmentRounds Rounds.default).mapError Refusal.fault
  let options ← Options.ofArguments rounds arguments
  if options.spec.contains '\x00' then .error (.fault .nulInPath) else return options

/-- Ends where there are no options. A number out of range is passed on. -/
def endRefused : Refusal → Except Fault Ending
  | .fault fault => .error fault
  | .usage message =>
    .ok { status := 2, complaint := lineOf (programName ++ ": error: " ++ message) }
  | .help => .ok { status := 0, output := help }

/-- Does what the options ask for, with the spec as far as it could be read. -/
def perform (options : Options) (source : Except PathFlaw String) : Except Fault Ending :=
  match source with
  | .error flaw => .ok (fail (flaw.message options.spec))
  | .ok content => do
    let spec := fileText content
    let ending ← process options spec
    return if options.verbose then { ending with log := events options spec } else ending

/-- What the command does for arguments, where `read` gives what a spec's name stands for. -/
def execute (environmentRounds : String) (arguments : List String)
    (read : String → Except PathFlaw String) : Except Fault Ending :=
  match readOptions environmentRounds arguments with
  | .error refusal => endRefused refusal
  | .ok options => perform options (read options.spec)

end StockFlow.Command
