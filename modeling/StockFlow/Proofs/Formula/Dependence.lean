import StockFlow.Attempt
import StockFlow.Formula.Evaluation
import StockFlow.Quantity.Exact

/-!
# What a formula depends on

A formula is evaluated from the stocks it refers to and from nothing else: quantities that agree on
its references give the same result, and the same fault where it has none. It looks at every one of
them, for it has no result where one cannot be read. Its references are the names that its
expression holds, down to the innermost group (`Formula.references_seen`).
-/

namespace StockFlow

open StockFlow.Spec

variable {α : Type} [Quantity α]

theorem Spec.Value.eval_congr {look look' : String → Except Fault α} (v : Value)
    (agree : ∀ name ∈ Formula.valueReferences v, look name = look' name) :
    v.eval look = v.eval look' := by
  cases v with
  | whole digits => rfl
  | decimal digits => rfl
  | infinity => rfl
  | reference name => exact agree name (List.mem_singleton_self name)

/-- Only what the references look up decides the result. -/
theorem Formula.eval_congr {look look' : String → Except Fault α} (f : Formula)
    (agree : ∀ name ∈ f.references, look name = look' name) : f.eval look = f.eval look' := by
  induction f with
  | value v => exact v.eval_congr agree
  | group f ih => exact ih agree
  | thenValue left op v ih =>
    have left_same := ih fun name h => agree name (List.mem_append_left _ h)
    have right_same := v.eval_congr fun name h => agree name (List.mem_append_right _ h)
    simp only [eval, left_same, right_same]
  | thenGroup left op f ih ih' =>
    have left_same := ih fun name h => agree name (List.mem_append_left _ h)
    have right_same := ih' fun name h => agree name (List.mem_append_right _ h)
    simp only [eval, left_same, right_same]

/-- Moments at which the stocks referred to hold the same give the same result. -/
theorem Formula.evalAt_congr {values values' : Snapshot α} (f : Formula)
    (agree : ∀ name ∈ f.references, values.find? name = values'.find? name) :
    f.evalAt values = f.evalAt values' := by
  refine f.eval_congr fun name h => ?_
  rw [Snapshot.look, Snapshot.look, agree name h]

/-! ## References at any depth -/

/-- The names that the references of a sequence spell, those in groups included, in order of
appearance and with repetitions. -/
def Spec.Expression.referenceNames : Expression → List String
  | .nil => []
  | .value (.reference name) rest => name :: rest.referenceNames
  | .value _ rest | .operation _ rest => rest.referenceNames
  | .group inner rest => inner.referenceNames ++ rest.referenceNames

theorem Spec.Expression.referenceNames_value (v : Value) (rest : Expression) :
    (Expression.value v rest).referenceNames = Formula.valueReferences v ++ rest.referenceNames := by
  cases v <;> rfl

theorem Formula.referenceNames_expressionThen (f : Formula) (rest : Expression) :
    (f.expressionThen rest).referenceNames = f.references ++ rest.referenceNames := by
  induction f generalizing rest with
  | value v => exact Expression.referenceNames_value v rest
  | group f ih =>
    rw [expressionThen, Expression.referenceNames, ih, Expression.referenceNames, List.append_nil,
      references]
  | thenValue left op v ih =>
    rw [expressionThen, ih, Expression.referenceNames, Expression.referenceNames_value, references,
      List.append_assoc]
  | thenGroup left op f ih ih' =>
    rw [expressionThen, ih, Expression.referenceNames, Expression.referenceNames, ih',
      Expression.referenceNames, List.append_nil, references, List.append_assoc]

/-! ## References that cannot be read -/

theorem Spec.Value.exists_of_eval {look : String → Except Fault α} {v : Value} {x : α}
    (computed : v.eval look = .ok x) {name : String} (listed : name ∈ Formula.valueReferences v) :
    ∃ y, look name = .ok y := by
  cases v with
  | reference other =>
    obtain rfl := List.mem_singleton.1 listed
    exact ⟨x, computed⟩
  | whole digits => cases listed
  | decimal digits => cases listed
  | infinity => cases listed

/-- A formula that has a result has read all its references. -/
theorem Formula.exists_of_eval {look : String → Except Fault α} {f : Formula} {x : α}
    (computed : f.eval look = .ok x) {name : String} (listed : name ∈ f.references) :
    ∃ y, look name = .ok y := by
  induction f generalizing x with
  | value v => exact v.exists_of_eval computed listed
  | group f ih => exact ih computed listed
  | thenValue left op v ih =>
    obtain ⟨y, left_computed, computed⟩ := bind_eq_ok_iff.1 computed
    obtain ⟨z, right_computed, -⟩ := bind_eq_ok_iff.1 computed
    rcases List.mem_append.1 listed with listed | listed
    · exact ih left_computed listed
    · exact v.exists_of_eval right_computed listed
  | thenGroup left op f ih ih' =>
    obtain ⟨y, left_computed, computed⟩ := bind_eq_ok_iff.1 computed
    obtain ⟨z, right_computed, -⟩ := bind_eq_ok_iff.1 computed
    rcases List.mem_append.1 listed with listed | listed
    · exact ih left_computed listed
    · exact ih' right_computed listed

/-- The references of a formula are the names that its expression holds at any depth, and are what
it sees of a state, whose entries are read by `read` where there are any: states that agree on them
give the same result or the same fault, and there is no result unless each of them is read. -/
theorem Formula.references_seen {β : Type} (f : Formula) (read : Option β → Except Fault α) :
    f.references = f.expression.referenceNames ∧
    (∀ state state' : Keyed β,
      (∀ name ∈ f.references, state.find? name = state'.find? name) →
        f.eval (fun name => read (state.find? name)) =
          f.eval fun name => read (state'.find? name)) ∧
    ∀ (state : Keyed β) (x : α), f.eval (fun name => read (state.find? name)) = .ok x →
      ∀ name ∈ f.references, ∃ y, read (state.find? name) = .ok y := by
  refine ⟨?_, ?_, ?_⟩
  · rw [expression, referenceNames_expressionThen, Expression.referenceNames, List.append_nil]
  · intro state state' agree
    apply f.eval_congr
    intro name listed
    rw [agree name listed]
  · intro state x computed name listed
    exact exists_of_eval computed listed

/-- `b + (a * (b - c))` -/
def Formula.branching : Formula :=
  .thenGroup (.value (.reference "b")) .plus
    (.thenGroup (.value (.reference "a")) .times
      (.thenValue (.value (.reference "b")) .minus (.reference "c")))

/-- The innermost names are seen, a stock that is not named is not, and without `c` there is no
number. -/
theorem Formula.references_seen_branching :
    branching.references = ["b", "a", "b", "c"] ∧
      branching.evalAt [("a", Exact.finite 2), ("b", .finite 5), ("c", .finite 1)] =
        branching.evalAt [("d", .nan), ("c", .finite 1), ("b", .finite 5), ("a", .finite 2)] ∧
      branching.evalAt [("a", Exact.finite 2), ("b", .finite 5)] = .ok .nan := by
  obtain ⟨names, agree, -⟩ := branching.references_seen fun entry : Option Exact =>
    .ok (entry.getD Quantity.nan)
  refine ⟨names.trans (by decide), agree _ _ ?_, rfl⟩
  rw [names]
  decide

end StockFlow
