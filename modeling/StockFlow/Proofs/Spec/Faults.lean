import StockFlow.Proofs.Text.Joining
import StockFlow.Spec.Line

/-!
# Faults of lines

A fault that is met while a line is processed gets the place of the line (`Fault.place?_atLine`).

Whatever keeps the pieces of a line from being found is a fault of specs (`isOfModel_of_linePieces`):
it comes from a name, from a formula or from parameters. No number is computed yet, so none can be
out of range.
-/

namespace StockFlow

open StockFlow.Spec StockFlow.Text

namespace Fault

@[simp] theorem place?_atLine (place : Place) (fault : Fault) : (fault.atLine place).place? = some place := by
  cases fault <;> rfl

end Fault

/-- If there is a fault, it is one of specs and models. -/
def FailsOfModel {β : Type} (attempt : Except Fault β) : Prop :=
  ∀ fault, attempt = .error fault → fault.isOfModel = true

namespace FailsOfModel

variable {β γ : Type}

theorem ok (b : β) : FailsOfModel (.ok b) :=
  fun _ failed => nomatch failed

theorem error {fault : Fault} (known : fault.isOfModel = true) :
    FailsOfModel (.error fault : Except Fault β) := by
  intro other same
  rwa [← Except.error.inj same]

theorem map {attempt : Except Fault β} (first : FailsOfModel attempt) (f : β → γ) :
    FailsOfModel (attempt.map f) :=
  fun fault failed => first fault (map_eq_error_iff.1 failed)

theorem bind {attempt : Except Fault β} {next : β → Except Fault γ} (first : FailsOfModel attempt)
    (goes_on : ∀ b, FailsOfModel (next b)) : FailsOfModel (attempt >>= next) := by
  intro fault failed
  rcases bind_eq_error_iff.1 failed with failed | ⟨b, -, failed⟩
  · exact first fault failed
  · exact goes_on b fault failed

theorem mapM {read : β → Except Fault γ} (each : ∀ b, FailsOfModel (read b)) (given : List β) :
    FailsOfModel (given.mapM read) := by
  intro fault failed
  obtain ⟨_, b, -, failed, -⟩ := mapM_eq_error_iff.1 failed
  exact each b fault failed

end FailsOfModel

namespace Spec

theorem Expression.ofText_failsOfModel (s : String) : FailsOfModel (Expression.ofText s) := by
  unfold Expression.ofText
  split
  · exact .error rfl
  · exact .ok _
  · exact .error rfl

theorem expressions_failsOfModel (cs : List Char) : FailsOfModel (expressions cs) :=
  .mapM (fun _ => Expression.ofText_failsOfModel _) _

theorem parameters_failsOfModel (cs : List Char) : FailsOfModel (parameters cs) := by
  unfold parameters
  split
  · exact .ok _
  · split
    · exact expressions_failsOfModel _
    · exact .error rfl

theorem call_failsOfModel (cs : List Char) : FailsOfModel (call cs) := by
  unfold call
  split
  · exact .error rfl
  · split
    · exact (parameters_failsOfModel _).map _
    · exact .error rfl

theorem StockPiece.ofChars_failsOfModel (cs : List Char) : FailsOfModel (StockPiece.ofChars cs) := by
  unfold StockPiece.ofChars
  simp only
  split
  · split
    · exact .ok _
    · exact .error rfl
  · exact (call_failsOfModel _).map _

theorem FlowPiece.ofChars_failsOfModel (cs : List Char) : FailsOfModel (FlowPiece.ofChars cs) := by
  unfold FlowPiece.ofChars
  simp only
  split
  · exact (call_failsOfModel _).map _
  · exact (expressions_failsOfModel _).map _

theorem stockPieces_failsOfModel (marked : Bool) (parts : List (List Char)) :
    FailsOfModel (stockPieces marked parts) := by
  induction parts with
  | nil => exact .ok _
  | cons cs rest ih =>
    cases rest with
    | nil =>
      rw [stockPieces]
      split
      · exact (StockPiece.ofChars_failsOfModel cs).map _
      · split
        · exact .ok _
        · exact (StockPiece.ofChars_failsOfModel cs).map _
    | cons next more =>
      exact (StockPiece.ofChars_failsOfModel cs).bind fun _ => ih.bind fun _ => .ok _

theorem flowPieces_failsOfModel (cs : List Char) : FailsOfModel (flowPieces cs) := by
  unfold flowPieces
  simp only
  split
  · exact .ok _
  · exact (FlowPiece.ofChars_failsOfModel _).map _

/-- Finding the pieces of a line fails by a fault of specs only. -/
theorem isOfModel_of_linePieces {cs : List Char} {fault : Fault}
    (failed : linePieces cs = .error fault) : fault.isOfModel = true := by
  have code_fails : FailsOfModel (codePieces (code cs)) :=
    (stockPieces_failsOfModel _ _).bind fun _ => (flowPieces_failsOfModel _).bind fun _ => .ok _
  exact code_fails.bind (fun _ => .ok _) fault failed

end Spec

end StockFlow
