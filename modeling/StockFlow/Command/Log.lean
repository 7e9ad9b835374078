import StockFlow.Simulation.Check
import StockFlow.Spec.Build

/-!
# The log

What happens while a spec is read and its model run, event by event, for those who want to follow.
-/

namespace StockFlow.Command

open StockFlow.Spec

/-- Something that happens on the way. -/
inductive Event where
  | scanned (lines : Nat)
  | declaredStock (stock : Stock)
  | declaredFlow (flow : Flow)
  | parsed (stocks flows : Nat)
  | validated (name : String) (order : List String)
  | initialized (name : String) (values : Snapshot Float)
  | advanced (round : Nat)
  | ran (name : String) (rounds : Nat)

namespace Event

/-- How much an event matters. -/
def level : Event → String
  | ran .. => "INFO"
  | _ => "DEBUG"

/-- An event in words. -/
def message : Event → String
  | scanned lines => "scanned " ++ toString lines ++ " line(s)"
  | declaredStock stock => "declared " ++ (if stock.shown then "" else "infinite ") ++ stock.text
  | declaredFlow flow => "declared " ++ flow.text
  | parsed stocks flows =>
    "parsed " ++ toString stocks ++ " stock(s) and " ++ toString flows ++ " flow(s)"
  | validated name order =>
    "validated " ++ Text.quoted name ++ "; initialization order " ++ Text.quotedList order
  | initialized name values =>
    "initialized state for " ++ Text.quoted name ++ ": " ++ Text.quotedEntries Number.text values
  | advanced round => "advanced to round " ++ toString round
  | ran name rounds => "ran " ++ Text.quoted name ++ " for " ++ toString rounds ++ " round(s)"

/-- An event as a line of the log, without the time. -/
def text (event : Event) : String :=
  event.level ++ " - " ++ event.message

/-- What a builder has more than it had before. -/
def ofGrowth (before after : Builder Float) : List Event :=
  (after.stocks.drop before.stocks.length).map declaredStock ++
    (after.flows.drop before.flows.length).map declaredFlow

/-- The declarations that lines make, up to the first fault. -/
def ofLines (b : Builder Float) : List Line → List Event
  | [] => []
  | line :: rest =>
    let attempt := b.addLine line
    ofGrowth b attempt.after ++
      match attempt.result with
      | .ok () => ofLines attempt.after rest
      | .error _ => []

/-- What happens while a spec is read. -/
def ofSpec (text : String) : List Event :=
  match scan text with
  | .error _ => []
  | .ok lines =>
    let attempt := Builder.addLines ({} : Builder Float) lines
    let parsed :=
      match attempt.result with
      | .ok () => [parsed attempt.after.stocks.length attempt.after.flows.length]
      | .error _ => []
    scanned lines.length :: ofLines {} lines ++ parsed

/-- What happens while a model's initial quantities are found. -/
def ofStart (m : Model Float) : List Event :=
  match m.order with
  | .error _ => []
  | .ok order =>
    match m.simulate [] with
    | .error _ => [validated m.name order]
    | .ok state => [validated m.name order, initialized m.name state.values]

/-- What happens while a model is checked: one with errors is not started. -/
def ofCheck (m : Model Float) : List Event :=
  if (m.danglingIssues ++ m.cycleIssues).isEmpty then ofStart m else []

/-- What happens while a model is run for a number of rounds. -/
def ofRun (m : Model Float) (rounds : Nat) : List Event :=
  match m.run rounds [] with
  | .error _ => ofStart m
  | .ok _ => ofStart m ++ (List.range rounds).map (advanced <| · + 1) ++ [ran m.name rounds]

end Event

end StockFlow.Command
