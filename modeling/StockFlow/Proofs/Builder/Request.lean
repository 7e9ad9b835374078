import StockFlow.Formula.Definition
import StockFlow.Proofs.Builder.Invariant

/-!
# Requests

What a caller asks of a builder: a call whose formulas may still have to be made from what is given
for them. A request that gives no formula is refused before the builder is looked at; any other is a
call, so requests lead to the builders that calls lead to (`Builder.requestAll_eq_callAll`).

Whatever is requested, the builder stays in order and holds nothing else
(`Builder.requestAll_sound`): a stock of another origin is never taken in, whatever it is called.
-/

namespace StockFlow

open StockFlow.Spec

/-- What is given for an initial value or a maximum. -/
inductive Builder.Given where
  | formula (f : Formula)
  /-- An expression, not yet known to make sense as a formula. -/
  | expression (e : Expression)
  | datum (d : Datum)

/-- The formula that is given, if one is. -/
def Builder.Given.read : Given → Except Fault (Option Formula)
  | formula f => .ok (some f)
  | expression e => (Formula.ofExpression e).map some
  | datum .nothing => .ok none
  | datum d => (Formula.ofDatum d).map some

/-- A request to a builder. -/
inductive Builder.Request where
  | stock (name : String) (initial maximum : Given)
  | infiniteStock (name : String)
  | flow (source destination : FlowEnd) (rule : Rule)

/-- The call that a request comes to; the initial value is read before the maximum. -/
def Builder.Request.call : Request → Except Fault Call
  | stock name initial maximum => do
    let initial ← initial.read
    let maximum ← maximum.read
    return .stock name initial maximum
  | infiniteStock name => .ok (.infiniteStock name)
  | flow source destination rule => .ok (.flow source destination rule)

namespace Builder

variable {α : Type} [Quantity α]

/-- Grants a request or refuses it. -/
def request (b : Builder α) (r : Request) : Attempt (Builder α) Unit :=
  match r.call with
  | .error fault => ⟨b, .error fault⟩
  | .ok call => b.call call

/-- Makes requests one after the other and goes on behind those that are refused. -/
def requestAll (b : Builder α) (requests : List Request) : Builder α :=
  requests.foldl (fun b r => (b.request r).after) b

theorem request_of_call {r : Request} {call : Call} (read : r.call = .ok call) (b : Builder α) :
    b.request r = b.call call := by
  rw [request, read]

/-- Only requests that can be read make calls. -/
theorem requestAll_eq_callAll (b : Builder α) (requests : List Request) :
    b.requestAll requests = b.callAll (requests.filterMap (·.call.toOption)) := by
  induction requests generalizing b with
  | nil => rfl
  | cons r rest ih =>
    have first : b.requestAll (r :: rest) = (b.request r).after.requestAll rest := rfl
    rw [first, ih, request]
    cases read : r.call with
    | error fault =>
      rw [List.filterMap_cons_none]
      rw [read]
      rfl
    | ok call =>
      rw [List.filterMap_cons_some]
      · rfl
      · rw [read]
        rfl

/-- What holds at first and is kept by each of some requests, granted or refused, holds after all of
them. -/
theorem requestAll_induct {motive : Builder α → Prop} {b : Builder α} {requests : List Request}
    (start : motive b) (step : ∀ b, ∀ r ∈ requests, ∀ call, r.call = .ok call → motive b →
      motive (b.call call).after) :
    motive (b.requestAll requests) := by
  induction requests generalizing b with
  | nil => exact start
  | cons r rest ih =>
    refine ih ?_ fun b r listed => step b r (List.mem_cons_of_mem _ listed)
    show motive (b.request r).after
    cases read : r.call with
    | error fault =>
      rw [request, read]
      exact start
    | ok call =>
      rw [request_of_call read]
      exact step b r (List.mem_cons_self ..) call read start

/-! ## What has been requested -/

/-- All that is in a builder has been requested of it: its stocks by their names, and its flows
between stocks that it declared. -/
structure Requested (requests : List Request) (b : Builder α) : Prop where
  stocks : ∀ name ∈ b.stockNames, ∃ r ∈ requests, ∃ call, r.call = .ok call ∧
    call.declares? = some name
  flows : ∀ flow ∈ b.flows,
    .flow (.declared flow.source) (.declared flow.destination) flow.rule ∈ requests

theorem Request.eq_flow_of_call {r : Request} {source destination : FlowEnd} {rule : Rule}
    (read : r.call = .ok (.flow source destination rule)) : r = .flow source destination rule := by
  cases r with
  | stock name initial maximum =>
    obtain ⟨_, -, read⟩ := bind_eq_ok_iff.1 read
    obtain ⟨_, -, read⟩ := bind_eq_ok_iff.1 read
    cases read
  | infiniteStock name => cases read
  | flow source' destination' rule' =>
    cases read
    rfl

theorem Requested.call {b : Builder α} {requests : List Request} {r : Request} {call : Call}
    (requested : b.Requested requests) (listed : r ∈ requests) (read : r.call = .ok call) :
    (b.call call).after.Requested requests := by
  have changes := changes_call b call
  generalize (b.call call).after = after at changes ⊢
  cases changes with
  | kept => exact requested
  | @stockAdded _ stock named _ =>
    refine ⟨fun name known => ?_, requested.flows⟩
    rw [stockNames_add] at known
    rcases List.mem_append.1 known with before | here
    · exact requested.stocks name before
    · obtain rfl := List.mem_singleton.1 here
      exact ⟨r, listed, call, read, named⟩
  | @stockFilled _ _ stock _ _ =>
    refine ⟨fun name known => requested.stocks name ?_, requested.flows⟩
    rwa [stockNames_replace] at known
  | @flowAdded flow _ _ _ _ _ =>
    refine ⟨requested.stocks, fun other known => ?_⟩
    rcases List.mem_append.1 known with before | here
    · exact requested.flows other before
    · obtain rfl := List.mem_singleton.1 here
      exact Request.eq_flow_of_call read ▸ listed

/-- A builder in order: no two stocks have one name, and each flow joins two of its stocks as they
are now, of which the source is not infinite if the flow takes a share of it. -/
structure Sound (b : Builder α) : Prop where
  distinct : b.stockNames.Nodup
  flows : ∀ flow ∈ b.flows, ∃ source destination, b.stock? flow.source = some source ∧
    b.stock? flow.destination = some destination ∧
    (flow.rule.kind.takesShare = true → source.isInfinite α = .ok false)

/-- Whatever is requested of a builder, in whatever order and with whatever success, it is in order,
and holds nothing but what has been requested of it. -/
theorem requestAll_sound (name : String) (requests : List Request) :
    (requestAll ({ name } : Builder α) requests).Sound ∧
      (requestAll ({ name } : Builder α) requests).Requested requests := by
  have empty : ({ name } : Builder α).Requested requests :=
    ⟨fun _ listed => (nomatch listed), fun _ listed => (nomatch listed)⟩
  refine ⟨?_, requestAll_induct empty fun b r listed call read requested =>
    requested.call listed read⟩
  rw [requestAll_eq_callAll]
  generalize requests.filterMap (·.call.toOption) = calls
  have built : Model.Built (callAll ({ name } : Builder α) calls).build := .ofCalls name calls
  refine ⟨built.nodup_stockNames, fun flow listed => ?_⟩
  obtain ⟨source_known, destination_known⟩ := built.ends_declared flow listed
  obtain ⟨source, source_found⟩ := mem_stockNames_iff.1 source_known
  obtain ⟨destination, destination_found⟩ := mem_stockNames_iff.1 destination_known
  exact ⟨source, destination, source_found, destination_found, fun shares =>
    built.finite_of_takesShare listed shares source_found⟩

end Builder

end StockFlow
