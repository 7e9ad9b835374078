import StockFlow.Report.Run
import StockFlow.Rounds

/-!
# Studies

A model in use. Its initialization order is found when it is first needed; a study knows whether
that has happened, and so whether the model has been found fit to run.
-/

namespace StockFlow

/-- A model, and whether its initialization order has been asked for. -/
structure Study where
  model : Model Float
  asked : Bool := false

namespace Study

/-- The study once the initialization order has been asked for. -/
def ask (study : Study) : Study :=
  { study with asked := true }

/-- Whether the initialization order has been found. -/
def validated (study : Study) : Bool :=
  study.asked && study.model.order.toOption.isSome

/-- The initialization order. -/
def order (study : Study) : Attempt Study (List String) :=
  ⟨study.ask, study.model.order⟩

/-- The issues of the model. -/
def check (study : Study) : Attempt Study (List Issue) :=
  ⟨study.ask, study.model.check⟩

/-- A state before the first round, the model being validated first of all. -/
def simulate (study : Study) (overrides : Overrides Float) : Attempt Study (State Float) :=
  ⟨study.ask, study.model.simulate overrides⟩

/-- A state before the first round, the overrides being looked at first of all. -/
def newState (study : Study) (overrides : Overrides Float) : Attempt Study (State Float) :=
  let result := State.start study.model overrides
  match result with
  | .error (.unknownOverride _) => ⟨study, result⟩
  | _ => ⟨study.ask, result⟩

/-- The snapshots of a run, the round count being read first of all. -/
def run (study : Study) (rounds : Datum) (overrides : Overrides Float) :
    Attempt Study (List (Snapshot Float)) :=
  match Rounds.ofDatum rounds with
  | .error fault => ⟨study, .error fault⟩
  | .ok rounds => ⟨study.ask, study.model.run rounds overrides⟩

end Study

end StockFlow
