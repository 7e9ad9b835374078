import StockFlow.Attempt
import StockFlow.Model

/-!
# Simulation

A state holds the quantities of all stocks after some rounds. Initialization evaluates each stock
against those before it, in an order that has every stock behind the ones it refers to. In a round
the flows take their turn from the last declared to the first: what a flow removes is gone at
once, what it adds is held back until all have had their turn, but counts when the next flow looks
at the room left.
-/

namespace StockFlow

/-- A run of a model in progress. -/
structure State (α : Type) where
  model : Model α
  /-- The number of rounds done. -/
  round : Nat
  values : Snapshot α
  deriving DecidableEq, Repr

/-- Initial quantities that replace computed ones, each as far as it could be read. -/
abbrev Overrides (α : Type) := Keyed (Except Fault α)

variable {α : Type} [Quantity α]

/-- The quantity of a stock, or the fault that it has none. -/
def Snapshot.entry (values : Snapshot α) (name : String) : Except Fault α :=
  match values.find? name with
  | some x => .ok x
  | none => .error (.missingEntry name)

namespace State

/-- The initial quantity of a stock. -/
def initialValue (model : Model α) (overrides : Overrides α) (values : Snapshot α)
    (name : String) : Except Fault α :=
  match overrides.find? name with
  | some given => given
  | none => do (← model.stock name).initial.evalAt values

/-- Initializes stocks one after the other. -/
def fill (model : Model α) (overrides : Overrides α) (names : List String)
    (values : Snapshot α) : Except Fault (Snapshot α) :=
  names.foldlM (fun values name => do
    return values.put name (← initialValue model overrides values name)) values

/-- All stocks in the order of their initialization: first those that `order` leaves out. -/
def sequence (model : Model α) (order : List String) : List String :=
  model.stockNames.filter (!order.contains ·) ++ order

/-- The state before the first round. -/
def start (model : Model α) (overrides : Overrides α) : Except Fault (State α) :=
  match overrides.names.find? (!model.stockNames.contains ·) with
  | some name => .error (.unknownOverride name)
  | none => do
    let order ← model.order
    let values ← fill model overrides (sequence model order) []
    return { model, round := 0, values }

end State

/-- A round in progress: the quantities as flows have left them, and what they will add. -/
structure Turn (α : Type) where
  values : Snapshot α
  pending : Snapshot α

namespace Turn

/-- What is held back for a stock so far. -/
def heldBack (turn : Turn α) (name : String) : α :=
  (turn.pending.find? name).getD Quantity.zero

/-- What a flow moves when its turn comes. -/
def transfer (model : Model α) (turn : Turn α) (flow : Flow) : Except Fault (α × Transfer α) := do
  let source ← Snapshot.entry turn.values flow.source
  let held ← Snapshot.entry turn.values flow.destination
  let destination ←
    match model.stock? flow.destination with
    | some stock => .ok stock
    | none => .error (.missingEntry flow.destination)
  let moved ← flow.transfer destination (Snapshot.look turn.values) source
    (held + turn.heldBack flow.destination)
  return (source, moved)

/-- One flow's turn. -/
def apply (model : Model α) (turn : Turn α) (flow : Flow) : Except Fault (Turn α) := do
  let (source, moved) ← turn.transfer model flow
  return {
    values := turn.values.put flow.source (source - moved.removed)
    pending := turn.pending.put flow.destination (turn.heldBack flow.destination + moved.added) }

/-- The turns of flows, up to the first fault. -/
def applyAll (model : Model α) (turn : Turn α) : List Flow → Attempt (Turn α) Unit
  | [] => ⟨turn, .ok ()⟩
  | flow :: rest =>
    match turn.apply model flow with
    | .ok turn => turn.applyAll model rest
    | .error fault => ⟨turn, .error fault⟩

/-- Adds what has been held back. -/
def commit (turn : Turn α) : Except Fault (Snapshot α) :=
  turn.pending.foldlM (fun values (name, added) => do
    return values.put name ((← Snapshot.entry values name) + added)) turn.values

end Turn

namespace State

/-- Goes on by one round. A fault leaves what flows have removed before it. -/
def advance (state : State α) : Attempt (State α) Unit :=
  let turns := Turn.applyAll state.model ⟨state.values, []⟩ state.model.flows.reverse
  match turns.result, turns.after.commit with
  | .error fault, _ | .ok (), .error fault =>
    ⟨{ state with values := turns.after.values }, .error fault⟩
  | .ok (), .ok values => ⟨{ state with round := state.round + 1, values }, .ok ()⟩

/-- Goes on by a number of rounds, up to the first fault. -/
def advanceBy (state : State α) : Nat → Attempt (State α) Unit
  | 0 => ⟨state, .ok ()⟩
  | n + 1 => state.advance.andThen fun state _ => state.advanceBy n

/-- Goes on until a round has been done, which must not lie behind. -/
def runTo (state : State α) (round : Int) : Attempt (State α) Unit :=
  if round < state.round then ⟨state, .error (.roundPassed round state.round)⟩
  else state.advanceBy (round.toNat - state.round)

/-- The quantity of a stock. -/
def value (state : State α) (name : String) : Except Fault α :=
  match state.values.find? name with
  | some x => .ok x
  | none => .error (.missingStock .state name)

/-- A state as messages show it. -/
def text (state : State α) : String :=
  "<State round " ++ toString state.round ++ " with " ++ toString state.values.length ++
    " stock(s)>"

/-- The quantities now and after each of a number of further rounds. -/
def snapshots (state : State α) : Nat → Except Fault (List (Snapshot α))
  | 0 => .ok [state.values]
  | n + 1 =>
    let attempt := state.advance
    match attempt.result with
    | .error fault => .error fault
    | .ok () => (attempt.after.snapshots n).map (state.values :: ·)

end State

namespace Model

/-- The state of a model before the first round. -/
def simulate (m : Model α) (overrides : Overrides α) : Except Fault (State α) := do
  let _ ← m.order
  State.start m overrides

/-- The initial quantities and those after each of a number of rounds. -/
def run (m : Model α) (rounds : Nat) (overrides : Overrides α) :
    Except Fault (List (Snapshot α)) := do
  (← m.simulate overrides).snapshots rounds

end Model

end StockFlow
