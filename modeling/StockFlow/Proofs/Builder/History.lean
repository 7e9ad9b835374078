import StockFlow.Spec.Build

/-!
# Histories of builders

A builder is what a sequence of calls has made of an empty one, failed calls included. Reading a
spec makes such calls and no others (`Model.Built.exists_calls`), so what every call keeps holds of
all models, from whichever side they come.
-/

namespace StockFlow

open StockFlow.Spec

/-- A call on a builder. -/
inductive Builder.Call where
  | stock (name : String) (initial maximum : Option Formula)
  | infiniteStock (name : String)
  | flow (source destination : FlowEnd) (rule : Rule)
  deriving DecidableEq, Repr

namespace Builder

variable {α : Type} [Quantity α]

/-- Makes a call; only what it leaves behind and its fault are kept. -/
def call (b : Builder α) : Call → Attempt (Builder α) Unit
  | .stock name initial maximum => (b.stock name initial maximum).andThen fun b _ => ⟨b, .ok ()⟩
  | .infiniteStock name => (b.infiniteStock name).andThen fun b _ => ⟨b, .ok ()⟩
  | .flow source destination rule => (b.flow source destination rule).andThen fun b _ => ⟨b, .ok ()⟩

/-- Makes calls one after the other and goes on behind those that fail. -/
def callAll (b : Builder α) (calls : List Call) : Builder α :=
  calls.foldl (fun b call => (b.call call).after) b

/-- Some calls on the first builder make it the second. -/
def LeadsTo (b b' : Builder α) : Prop :=
  ∃ calls, b' = b.callAll calls

theorem LeadsTo.refl (b : Builder α) : b.LeadsTo b :=
  ⟨[], rfl⟩

theorem LeadsTo.trans {b b' b'' : Builder α} (first : b.LeadsTo b') (second : b'.LeadsTo b'') :
    b.LeadsTo b'' := by
  obtain ⟨calls, rfl⟩ := first
  obtain ⟨more, rfl⟩ := second
  exact ⟨calls ++ more, (List.foldl_append ..).symm⟩

theorem LeadsTo.call (b : Builder α) (call : Call) : b.LeadsTo (b.call call).after :=
  ⟨[call], rfl⟩

omit [Quantity α] in
theorem after_andThen_unit {β : Type} (attempt : Attempt (Builder α) β) :
    (attempt.andThen fun b _ => (⟨b, .ok ()⟩ : Attempt (Builder α) Unit)).after = attempt.after := by
  unfold Attempt.andThen
  split <;> rfl

/-- Going on only behind a success stays among the builders that calls lead to. -/
theorem LeadsTo.andThen {β γ : Type} {b : Builder α} {first : Attempt (Builder α) β}
    {next : Builder α → β → Attempt (Builder α) γ} (start : b.LeadsTo first.after)
    (goes_on : ∀ b' x, LeadsTo b' (next b' x).after) : b.LeadsTo (first.andThen next).after := by
  unfold Attempt.andThen
  split
  · exact start.trans (goes_on ..)
  · exact start

/-! ## Specs -/

theorem leadsTo_declare (b : Builder α) (written : StockPiece) :
    b.LeadsTo (b.declare written).after := by
  cases written with
  | infinite name =>
    have made := LeadsTo.call b (.infiniteStock name)
    rwa [call, after_andThen_unit] at made
  | finite name parameters =>
    simp only [declare]
    split
    · rename_i initial maximum _
      have made := LeadsTo.call b (.stock name initial maximum)
      rwa [call, after_andThen_unit] at made
    · exact .refl b

theorem leadsTo_connect (b : Builder α) (source destination : FlowEnd) (written : FlowPiece) :
    b.LeadsTo (b.connect source destination written).after := by
  unfold connect
  split
  · rename_i rule _
    have made := LeadsTo.call b (.flow source destination rule)
    rwa [call, after_andThen_unit] at made
  · exact .refl b

theorem leadsTo_addPieces (b : Builder α) (ends : List String) (pieces : List Piece) :
    b.LeadsTo (b.addPieces ends pieces).after := by
  induction pieces generalizing b ends with
  | nil => exact .refl b
  | cons piece rest ih =>
    cases piece with
    | stock written =>
      unfold addPieces
      split
      · exact (leadsTo_declare b written).andThen fun b' stock => ih b' _
      · exact ih b ends
    | flow written =>
      unfold addPieces
      split
      · exact (leadsTo_connect b _ _ written).andThen fun b' _ => ih b' _
      · exact ih b ends
    | direction => exact ih b ends
    | delimiter => exact ih b ends
    | comment text => exact ih b ends

theorem leadsTo_addLine (b : Builder α) (line : Line) : b.LeadsTo (b.addLine line).after :=
  leadsTo_addPieces b [] line.pieces

theorem leadsTo_addLines (b : Builder α) (lines : List Line) :
    b.LeadsTo (b.addLines lines).after := by
  induction lines generalizing b with
  | nil => exact .refl b
  | cons line rest ih => exact (leadsTo_addLine b line).andThen fun b' _ => ih b'

end Builder

/-- The models that builders and specs give. -/
inductive Model.Built {α : Type} [Quantity α] : Model α → Prop where
  | ofCalls (name : String) (calls : List Builder.Call) :
      Built (Builder.callAll { name } calls).build
  | ofText {name text : String} {m : Model α} (read : Model.ofText name text = .ok m) : Built m

namespace Model.Built

variable {α : Type} [Quantity α] {m : Model α}

/-- A spec, too, is read by calls on a builder. -/
theorem exists_calls (built : m.Built) :
    ∃ name calls, m = (Builder.callAll { name } calls).build := by
  cases built with
  | ofCalls name calls => exact ⟨name, calls, rfl⟩
  | @ofText name text _ read =>
    obtain ⟨lines, -, read⟩ := bind_eq_ok_iff.1 read
    obtain ⟨_, -, read⟩ := bind_eq_ok_iff.1 read
    obtain ⟨calls, made⟩ := Builder.leadsTo_addLines { name : Builder α } lines
    exact ⟨name, calls, by rw [← Except.ok.inj read, made]⟩

end Model.Built

end StockFlow
