import StockFlow.Attempt
import StockFlow.Formula.Evaluation

/-!
# Computing formulas

A formula can be computed in one pass over its expression that carries what there is so far and the
operator last met. What such a pass gives where it has met no operand does not matter
(`Formula.evalFrom_expression`), for a formula has one. Apart from what its references look up,
only a whole number that is spelled out in it can make it fail (`Formula.cause_of_eval`).
-/

namespace StockFlow

open StockFlow.Spec

variable {α : Type} [Quantity α]

/-! ## One pass -/

/-- Goes on with a further operand; the first one is taken as it is. -/
def Spec.Operator.proceed (op : Option Operator) (sofar : Option α) (operand : α) : α :=
  match sofar, op with
  | some x, some op => op.apply x operand
  | _, _ => operand

/-- Computes an expression member by member, from what there is so far and the operator last met,
and gives `fallback` if there is no operand; `fallbackOf` does so for each group. -/
def Spec.Expression.evalFrom (look : String → Except Fault α) (fallbackOf : Expression → α)
    (fallback : α) (sofar : Option α) (op : Option Operator) : Expression → Except Fault α
  | .nil => .ok (sofar.getD fallback)
  | .value v rest => do
    let operand ← v.eval look
    rest.evalFrom look fallbackOf fallback (some (Operator.proceed op sofar operand)) op
  | .operation next rest => rest.evalFrom look fallbackOf fallback sofar (some next)
  | .group inner rest => do
    let operand ← inner.evalFrom look fallbackOf (fallbackOf inner) none none
    rest.evalFrom look fallbackOf fallback (some (Operator.proceed op sofar operand)) op

namespace Formula

variable (look : String → Except Fault α) (fallbackOf : Expression → α)

/-- A pass over a formula gets to what follows it with the quantity of the formula. -/
theorem exists_evalFrom_expressionThen (f : Formula) (fallback : α) :
    ∃ op, ∀ rest, (f.expressionThen rest).evalFrom look fallbackOf fallback none none =
      f.eval look >>= fun x => rest.evalFrom look fallbackOf fallback (some x) op := by
  induction f generalizing fallback with
  | value v => exact ⟨none, fun rest => rfl⟩
  | group f ih =>
    obtain ⟨op, inner⟩ := ih (fallbackOf (f.expressionThen .nil))
    refine ⟨none, fun rest => ?_⟩
    rw [expressionThen, Expression.evalFrom, inner, eval]
    cases f.eval look <;> rfl
  | thenValue left op v ih =>
    obtain ⟨before, left_eq⟩ := ih fallback
    refine ⟨some op, fun rest => ?_⟩
    rw [expressionThen, left_eq, eval]
    cases left.eval look with
    | error fault => rfl
    | ok x =>
      show Expression.evalFrom look fallbackOf fallback (some x) before
        (.operation op (.value v rest)) = _
      rw [Expression.evalFrom, Expression.evalFrom]
      cases v.eval look <;> rfl
  | thenGroup left op f ih ih' =>
    obtain ⟨before, left_eq⟩ := ih fallback
    obtain ⟨inside, inner⟩ := ih' (fallbackOf (f.expressionThen .nil))
    refine ⟨some op, fun rest => ?_⟩
    rw [expressionThen, left_eq, eval]
    cases left.eval look with
    | error fault => rfl
    | ok x =>
      show Expression.evalFrom look fallbackOf fallback (some x) before
        (.operation op (.group (f.expressionThen .nil) rest)) = _
      rw [Expression.evalFrom, Expression.evalFrom, inner]
      cases f.eval look <;> rfl

/-- Whatever a pass over the expression of a formula falls back to where it finds no operand, it
gives the quantity of the formula. -/
theorem evalFrom_expression (f : Formula) (fallback : α) :
    f.expression.evalFrom look fallbackOf fallback none none = f.eval look := by
  obtain ⟨op, pass⟩ := exists_evalFrom_expressionThen look fallbackOf f fallback
  rw [expression, pass]
  cases f.eval look <;> rfl

end Formula

/-! ## What makes a formula fail -/

/-- The fault of a whole number that has no quantity: it has more digits than are read, or else is
beyond the range of quantities. -/
inductive WholeFault (α : Type) [Quantity α] (digits : String) : Fault → Prop where
  | tooLong : Fault.maxDigits < wholeLength digits →
      WholeFault α digits (.wholeTooLong (wholeLength digits))
  | tooLarge : wholeLength digits ≤ Fault.maxDigits →
      Quantity.ofWhole? (wholeValue digits) = (none : Option α) → WholeFault α digits .wholeTooLarge

theorem WholeFault.eval {digits : String} {fault : Fault} (whole : WholeFault α digits fault)
    (look : String → Except Fault α) : (Value.whole digits).eval look = .error fault := by
  cases whole with
  | tooLong long => rw [Value.eval, if_pos long]
  | tooLarge short large => rw [Value.eval, if_neg (Nat.not_lt_of_le short), large]

namespace Formula

/-- The whole number that a value spells out. -/
def valueWholes : Value → List String
  | .whole digits => [digits]
  | _ => []

/-- The whole numbers that a formula spells out, in order of appearance, with repetitions. -/
def wholes : Formula → List String
  | value v => valueWholes v
  | group f => f.wholes
  | thenValue left _ v => left.wholes ++ valueWholes v
  | thenGroup left _ f => left.wholes ++ f.wholes

/-- What a fault comes from that is met in evaluating: a reference or a whole number. -/
def Cause (look : String → Except Fault α) (references wholes : List String) (fault : Fault) :
    Prop :=
  (∃ name ∈ references, look name = .error fault) ∨ ∃ digits ∈ wholes, WholeFault α digits fault

theorem Cause.mono {look : String → Except Fault α}
    {references references' wholes wholes' : List String} {fault : Fault}
    (cause : Cause look references wholes fault) (more : references ⊆ references')
    (more' : wholes ⊆ wholes') : Cause look references' wholes' fault := by
  rcases cause with ⟨name, listed, missed⟩ | ⟨digits, listed, whole⟩
  · exact .inl ⟨name, more listed, missed⟩
  · exact .inr ⟨digits, more' listed, whole⟩

theorem cause_of_eval_value {look : String → Except Fault α} {v : Value} {fault : Fault}
    (failed : v.eval look = .error fault) :
    Cause look (valueReferences v) (valueWholes v) fault := by
  cases v with
  | whole digits =>
    refine .inr ⟨digits, List.mem_singleton_self digits, ?_⟩
    rw [Value.eval] at failed
    split at failed
    · rename_i long
      exact Except.error.inj failed ▸ .tooLong long
    · rename_i short
      split at failed
      · cases failed
      · rename_i large
        exact Except.error.inj failed ▸ .tooLarge (Nat.le_of_not_lt short) large
  | decimal digits => cases failed
  | infinity => cases failed
  | reference name => exact .inl ⟨name, List.mem_singleton_self name, failed⟩

/-- Only references and whole numbers make a formula fail. -/
theorem cause_of_eval {look : String → Except Fault α} {f : Formula} {fault : Fault}
    (failed : f.eval look = .error fault) : Cause look f.references f.wholes fault := by
  induction f generalizing fault with
  | value v => exact cause_of_eval_value failed
  | group f ih => exact ih failed
  | thenValue left op v ih =>
    rcases bind_eq_error_iff.1 failed with failed | ⟨x, -, failed⟩
    · exact (ih failed).mono (List.subset_append_left ..) (List.subset_append_left ..)
    · rcases bind_eq_error_iff.1 failed with failed | ⟨y, -, failed⟩
      · exact (cause_of_eval_value failed).mono (List.subset_append_right ..)
          (List.subset_append_right ..)
      · cases failed
  | thenGroup left op f ih ih' =>
    rcases bind_eq_error_iff.1 failed with failed | ⟨x, -, failed⟩
    · exact (ih failed).mono (List.subset_append_left ..) (List.subset_append_left ..)
    · rcases bind_eq_error_iff.1 failed with failed | ⟨y, -, failed⟩
      · exact (ih' failed).mono (List.subset_append_right ..) (List.subset_append_right ..)
      · cases failed

/-- At a moment, where a reference is never a fault, only whole numbers make a formula fail. -/
theorem whole_of_evalAt {f : Formula} {values : Snapshot α} {fault : Fault}
    (failed : f.evalAt values = .error fault) : ∃ digits ∈ f.wholes, WholeFault α digits fault := by
  rcases cause_of_eval failed with ⟨name, -, missed⟩ | whole
  · cases missed
  · exact whole

end Formula

end StockFlow
