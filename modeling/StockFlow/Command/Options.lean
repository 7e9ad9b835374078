import StockFlow.Command.Word
import StockFlow.Rounds

/-!
# Options

What the arguments of the command line ask for: a spec, given by a file or by `-` for the
standard input, a number of rounds, and the form of the output. Arguments that make no sense are
refused with a message; words that nothing asked for are collected and refused at the end.
-/

namespace StockFlow.Command

/-- What the command line asks for. -/
structure Options where
  /-- The file of the spec, or `-`. -/
  spec : String := "-"
  /-- The number of rounds; nothing where an argument that stands for none was given. -/
  rounds : Option Nat
  csv : Bool := false
  json : Bool := false
  check : Bool := false
  verbose : Bool := false
  deriving DecidableEq, Repr

/-- The number of rounds asked for. -/
def Options.count (options : Options) : Except Fault Nat :=
  match options.rounds with
  | some rounds => .ok rounds
  | none => Rounds.ofDatum .sequence

/-- Why arguments lead to no options. -/
inductive Refusal where
  /-- The arguments make no sense. -/
  | usage (message : String)
  /-- A number among them is out of range. -/
  | fault (fault : Fault)
  /-- They ask how the command is used. -/
  | help
  deriving DecidableEq, Repr

/-- What is behind the switches of a word. -/
inductive Tail where
  /-- Nothing more: the letters were all switches without argument. -/
  | nothing
  /-- The argument of the last switch, attached to it or else in the next word. -/
  | count (attached : Option String)
  deriving DecidableEq, Repr

namespace Switch

/-- Refuses the use of a switch. -/
def refuse {β : Type} (switch : Switch) (message : String) : Except Refusal β :=
  .error (.usage ("argument " ++ switch.title ++ ": " ++ message))

/-- Refuses a text attached to a switch that takes none. -/
def refuseAttached {β : Type} (switch : Switch) (text : String) : Except Refusal β :=
  switch.refuse ("ignored explicit argument " ++ Text.quoted text)

/-- The switches that a switch and the letters attached to it ask for, and what is behind them. A
letter that is no switch is refused with all that follows it. -/
def cluster (switch : Switch) (letters : List Char) : Except Refusal (List Switch × Tail) :=
  if switch.takesArgument then
    .ok ([], .count (if letters.isEmpty then none else some (.ofList letters)))
  else
    match letters with
    | [] => .ok ([switch], .nothing)
    | letter :: rest =>
      match ofLetter? letter with
      | none => switch.refuseAttached (.ofList letters)
      | some next => do
        let (more, tail) ← next.cluster rest
        return (switch :: more, tail)

/-- The switches that a switch with a text attached asks for, and what is behind them. -/
def withAttached (switch : Switch) (attached : Attached) :
    Except Refusal (List Switch × Tail) :=
  if switch.takesArgument then .ok ([], .count (some attached.text))
  else if !attached.toLetter || attached.text = "" then switch.refuseAttached attached.text
  else switch.cluster attached.text.toList

end Switch

/-- Arguments read so far. -/
structure Reading where
  options : Options
  /-- Whether the place of the spec is taken. -/
  hasSpec : Bool := false
  /-- Words that nothing asked for. -/
  extras : List String := []
  deriving DecidableEq, Repr

namespace Reading

/-- Turns a switch without argument on. -/
def turnOn (reading : Reading) (switch : Switch) : Except Refusal Reading :=
  let options := reading.options
  match switch with
  | .help => .error .help
  | .rounds => .ok reading
  | .csv => .ok { reading with options := { options with csv := true } }
  | .json => .ok { reading with options := { options with json := true } }
  | .check => .ok { reading with options := { options with check := true } }
  | .verbose => .ok { reading with options := { options with verbose := true } }

/-- Sets the number of rounds. Two dashes stand for no argument at all. -/
def setRounds (reading : Reading) (text : String) : Except Refusal Reading :=
  let set (rounds : Option Nat) : Reading :=
    { reading with options := { reading.options with rounds } }
  if text = "--" then .ok (set none)
  else
    match Rounds.ofText text with
    | .ok rounds => .ok (set rounds)
    | .error (.badCount flaw) => Switch.rounds.refuse flaw.message
    | .error fault => .error (.fault fault)

/-- Collects a word that nothing asked for. -/
def addExtra (reading : Reading) (text : String) : Reading :=
  { reading with extras := reading.extras ++ [text] }

/-- Takes an operand as the spec, if there is none yet. -/
def takeOperand (reading : Reading) (text : String) : Reading :=
  if reading.hasSpec then reading.addExtra text
  else { reading with options := { reading.options with spec := text }, hasSpec := true }

/-- What a switch asks for. -/
def requests (switch : Switch) : Option Attached → Except Refusal (List Switch × Tail)
  | some attached => switch.withAttached attached
  | none => switch.cluster []

/-- Reads the words one after the other. -/
def readWords (reading : Reading) : List Word → Except Refusal Reading
  | [] => .ok reading
  | .operand text :: .divider :: rest =>
    if reading.hasSpec then ((reading.addExtra text).addExtra "--").readWords rest
    else (reading.takeOperand text).readWords rest
  | .operand text :: rest => (reading.takeOperand text).readWords rest
  | .divider :: .operand text :: rest =>
    if reading.hasSpec then ((reading.addExtra "--").addExtra text).readWords rest
    else (reading.takeOperand text).readWords rest
  | .divider :: rest =>
    if reading.hasSpec then (reading.addExtra "--").readWords rest
    else { reading with hasSpec := true }.readWords rest
  | .unknown text :: rest => (reading.addExtra text).readWords rest
  | .switch switch attached :: rest => do
    let (on, tail) ← requests switch attached
    match tail with
    | .nothing => (← on.foldlM turnOn reading).readWords rest
    | .count (some text) => (← (← on.foldlM turnOn reading).setRounds text).readWords rest
    | .count none =>
      match rest with
      | .operand text :: rest => (← (← on.foldlM turnOn reading).setRounds text).readWords rest
      | _ => Switch.rounds.refuse "expected one argument"

end Reading

/-- The options that arguments ask for, given the number of rounds where they name none. -/
def Options.ofArguments (rounds : Nat) (arguments : List String) : Except Refusal Options := do
  let reading ← ({ options := { rounds } } : Reading).readWords (words arguments)
  if reading.extras.isEmpty then return reading.options
  .error (.usage ("unrecognized arguments: " ++ " ".intercalate reading.extras))

end StockFlow.Command
