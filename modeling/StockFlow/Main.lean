import Std.Time.Format
import StockFlow.Command

/-!
# The program

Reads what the command needs from the outside, and writes what it answers.
-/

namespace StockFlow

open StockFlow.Command

/-- The text of a file, or why there is none. -/
def readPath (path : String) : IO (Except PathFlaw String) := do
  try
    return .ok (← IO.FS.readFile path)
  catch
    | .noFileOrDirectory .. => return .error .missing
    | .inappropriateType _ code _ =>
      return .error (if code = 21 || code = -21 then .isAFolder else .notAFolder)
    | .invalidArgument .. => return .error .tooLong
    | e => throw e

/-- The spec that the options name. -/
def readSpec (options : Options) : IO (Except PathFlaw String) := do
  if options.spec = "-" then return .ok (← (← IO.getStdin).readToEnd)
  readPath options.spec

/-- Writes how the command ends, and exits. -/
def conclude (ending : Except Fault Ending) : IO UInt32 := do
  match ending with
  | .error fault =>
    IO.eprintln fault.message
    return 1
  | .ok ending =>
    let time ← Std.Time.PlainTime.now
    for event in ending.log do
      IO.eprintln (time.format "HH:mm:ss" ++ " - " ++ event.text)
    IO.print ending.output
    IO.eprint ending.complaint
    return ending.status.toUInt32

end StockFlow

open StockFlow in
/-- Runs or checks the model of a spec. -/
def main (arguments : List String) : IO UInt32 := do
  let rounds := (← IO.getEnv "SYSTEMS_ROUNDS").getD ""
  match Command.readOptions rounds arguments with
  | .error refusal => conclude (Command.endRefused refusal)
  | .ok options => conclude (Command.perform options (← readSpec options))
