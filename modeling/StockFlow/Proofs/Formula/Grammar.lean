import Mathlib.Data.List.Basic
import StockFlow.Attempt
import StockFlow.Formula.Evaluation
import StockFlow.Proofs.Spec.Items
import StockFlow.Quantity.Exact

/-!
# The grammar of formulas

Formulas as a grammar has them, `E ::= T (op T)*` with `T ::= value | ( E )`, over the items of a
text. A text is a formula just if its items can be derived, in one way then, and the formula is
evaluated as the derivation is: from the left, without precedence, each group by itself
(`Formula.ofText_grammar`).

Reading goes through expressions, and an expression makes a formula just if it is that of the
formula (`Formula.ofExpression_eq_ok_iff`). A formula holds the same operands and operators as its
derivation; it nests to the left where the derivation lists what follows the first operand.
-/

namespace StockFlow

open StockFlow.Spec

/-! ## Derivations -/

namespace Grammar

mutual

/-- `T ::= value | ( E )` -/
inductive Operand where
  | value (v : Value)
  | group (inner : Chain)

/-- `E ::= T (op T)*` -/
inductive Chain where
  | of (first : Operand) (rest : Links)

/-- `(op T)*` -/
inductive Links where
  | nil
  | cons (op : Operator) (next : Operand) (rest : Links)

end

mutual

/-- The items that an operand derives. -/
def Operand.items : Operand → List Item
  | .value v => [.value v]
  | .group inner => .opening :: (inner.items ++ [.closing])

/-- The items that a chain derives. -/
def Chain.items : Chain → List Item
  | .of first rest => first.items ++ rest.items

/-- The items that follow a first operand. -/
def Links.items : Links → List Item
  | .nil => []
  | .cons op next rest => .operation op :: (next.items ++ rest.items)

end

section Evaluation

variable {α : Type} [Quantity α] (look : String → Except Fault α)

mutual

/-- The quantity of an operand, that of a group by itself. -/
def Operand.eval : Operand → Except Fault α
  | .value v => v.eval look
  | .group inner => inner.eval

/-- The quantity of the first operand, on which the operators then act. -/
def Chain.eval : Chain → Except Fault α
  | .of first rest => do rest.evalFrom (← first.eval)

/-- Applies each operator to what there is so far and to the operand behind it. -/
def Links.evalFrom (x : α) : Links → Except Fault α
  | .nil => .ok x
  | .cons op next rest => do rest.evalFrom (op.apply x (← next.eval))

end

end Evaluation

/-! ## Derivations as formulas -/

mutual

/-- The formula that a chain derives. -/
def Chain.formula : Chain → Formula
  | .of (.value v) rest => rest.extend (.value v)
  | .of (.group inner) rest => rest.extend (.group inner.formula)

/-- Goes on with a formula by further operators and operands. -/
def Links.extend (left : Formula) : Links → Formula
  | .nil => left
  | .cons op (.value v) rest => rest.extend (.thenValue left op v)
  | .cons op (.group inner) rest => rest.extend (.thenGroup left op inner.formula)

end

/-- The derivation of a formula, followed by `rest`. -/
def chainThen : Formula → Links → Chain
  | .value v, rest => .of (.value v) rest
  | .group f, rest => .of (.group (chainThen f .nil)) rest
  | .thenValue left op v, rest => chainThen left (.cons op (.value v) rest)
  | .thenGroup left op f, rest => chainThen left (.cons op (.group (chainThen f .nil)) rest)

theorem formula_chainThen (f : Formula) (rest : Links) :
    (chainThen f rest).formula = rest.extend f := by
  induction f generalizing rest with
  | value v => simp [chainThen, Chain.formula]
  | group f ih => simp [chainThen, Chain.formula, ih, Links.extend]
  | thenValue left op v ih => simp [chainThen, ih, Links.extend]
  | thenGroup left op f ih ih' => simp [chainThen, ih, ih', Links.extend]

mutual

theorem chainThen_formula : ∀ c : Chain, chainThen c.formula .nil = c
  | .of (.value v) rest => by rw [Chain.formula, chainThen_extend, chainThen]
  | .of (.group inner) rest => by
    rw [Chain.formula, chainThen_extend, chainThen, chainThen_formula inner]

theorem chainThen_extend : ∀ (rest : Links) (left : Formula),
    chainThen (rest.extend left) .nil = chainThen left rest
  | .nil, left => by rw [Links.extend]
  | .cons op (.value v) rest, left => by rw [Links.extend, chainThen_extend rest, chainThen]
  | .cons op (.group inner) rest, left => by
    rw [Links.extend, chainThen_extend rest, chainThen, chainThen_formula inner]

end

end Grammar

open Grammar

namespace Formula

/-! ## Expressions and formulas -/

theorem items_expressionThen (f : Formula) (rest : Expression) :
    (f.expressionThen rest).items = f.expression.items ++ rest.items := by
  induction f generalizing rest with
  | value v => rfl
  | group f ih => simp [expression, expressionThen, Expression.items]
  | thenValue left op v ih =>
    show (left.expressionThen (.operation op (.value v rest))).items =
      (left.expressionThen (.operation op (.value v .nil))).items ++ rest.items
    simp [ih (.operation ..), Expression.items]
  | thenGroup left op f ih =>
    show (left.expressionThen (.operation op (.group f.expression rest))).items =
      (left.expressionThen (.operation op (.group f.expression .nil))).items ++ rest.items
    simp [ih (.operation ..), Expression.items]

/-- Where the rest has no flaw, a formula is read from the front of it. -/
theorem ofExpression_expressionThen (f : Formula) {rest : Expression}
    (sound : rest.tailFlaw? = none) :
    ofExpression (f.expressionThen rest) = extend (f.expressionThen rest) f rest := by
  induction f generalizing rest with
  | value v => rw [expressionThen, ofExpression]
  | group f ih =>
    have inner : ofExpression (f.expressionThen .nil) = .ok f := by
      rw [ih rfl, extend]
    rw [expressionThen, ofExpression, sound, inner]
  | thenValue left op v ih =>
    rw [expressionThen, ih (by rwa [Expression.tailFlaw?]), extend]
  | thenGroup left op f ih ih' =>
    have inner : ofExpression (f.expressionThen .nil) = .ok f := by
      rw [ih' rfl, extend]
    rw [expressionThen, ih (by rwa [Expression.tailFlaw?]), extend, sound, inner]

mutual

theorem expression_of_ofExpression : ∀ {e : Expression} {f : Formula},
    ofExpression e = .ok f → f.expression = e
  | .nil, f, made => nomatch made
  | .operation .., f, made => nomatch made
  | .value v rest, f, made => expressionThen_of_extend made
  | .group inner rest, f, made => by
    unfold ofExpression at made
    split at made
    · cases made
    · split at made
      · rename_i g inner_made
        rw [expressionThen_of_extend made, expressionThen, ← expression,
          expression_of_ofExpression inner_made]
      · cases made

theorem expressionThen_of_extend : ∀ {rest level : Expression} {left f : Formula},
    extend level left rest = .ok f → f.expression = left.expressionThen rest
  | .nil, level, left, f, made => by
    unfold extend at made
    rw [← Except.ok.inj made, expression]
  | .value .., level, left, f, made => nomatch made
  | .group .., level, left, f, made => nomatch made
  | .operation _ .nil, level, left, f, made => nomatch made
  | .operation _ (.operation ..), level, left, f, made => nomatch made
  | .operation op (.value v rest), level, left, f, made => by
    unfold extend at made
    rw [expressionThen_of_extend made, expressionThen]
  | .operation op (.group inner rest), level, left, f, made => by
    unfold extend at made
    split at made
    · cases made
    · split at made
      · rename_i g inner_made
        rw [expressionThen_of_extend made, expressionThen, ← expression,
          expression_of_ofExpression inner_made]
      · cases made

end

/-- An expression makes a formula just if it is the expression of the formula. -/
theorem ofExpression_eq_ok_iff {e : Expression} {f : Formula} :
    ofExpression e = .ok f ↔ f.expression = e := by
  constructor
  · exact expression_of_ofExpression
  · rintro rfl
    rw [expression, ofExpression_expressionThen f rfl, extend]

theorem ofText_eq_ok_iff {s : String} {f : Formula} :
    ofText s = .ok f ↔ f.expression.items = Item.scan s.toList := by
  rw [ofText, bind_eq_ok_iff]
  simp only [Expression.ofText_eq_ok_iff, ofExpression_eq_ok_iff]
  constructor
  · rintro ⟨e, read, rfl⟩
    exact read
  · exact fun read => ⟨_, read, rfl⟩

theorem exists_of_refuse {e : Expression} {flaw : FormulaFlaw} {fault : Fault}
    (refused : refuse e flaw = .error fault) :
    ∃ formula reason, fault = .invalidFormula formula reason :=
  ⟨_, _, (Except.error.inj refused).symm⟩

mutual

theorem invalid_of_ofExpression : ∀ {e : Expression} {fault : Fault},
    ofExpression e = .error fault → ∃ formula reason, fault = .invalidFormula formula reason
  | .nil, fault, refused => by
    unfold ofExpression at refused
    exact exists_of_refuse refused
  | .operation .., fault, refused => by
    unfold ofExpression at refused
    exact exists_of_refuse refused
  | .value v rest, fault, refused => by
    unfold ofExpression at refused
    exact invalid_of_extend refused
  | .group inner rest, fault, refused => by
    unfold ofExpression at refused
    split at refused
    · exact exists_of_refuse refused
    · split at refused
      · exact invalid_of_extend refused
      · rename_i inner_fault inner_refused
        exact Except.error.inj refused ▸ invalid_of_ofExpression inner_refused

theorem invalid_of_extend : ∀ {rest level : Expression} {left : Formula} {fault : Fault},
    extend level left rest = .error fault → ∃ formula reason, fault = .invalidFormula formula reason
  | .nil, level, left, fault, refused => by
    unfold extend at refused
    cases refused
  | .value .., level, left, fault, refused => by
    unfold extend at refused
    exact exists_of_refuse refused
  | .group .., level, left, fault, refused => by
    unfold extend at refused
    exact exists_of_refuse refused
  | .operation _ .nil, level, left, fault, refused => by
    unfold extend at refused
    exact exists_of_refuse refused
  | .operation _ (.operation ..), level, left, fault, refused => by
    unfold extend at refused
    exact exists_of_refuse refused
  | .operation op (.value v rest), level, left, fault, refused => by
    unfold extend at refused
    exact invalid_of_extend refused
  | .operation op (.group inner rest), level, left, fault, refused => by
    unfold extend at refused
    split at refused
    · exact exists_of_refuse refused
    · split at refused
      · exact invalid_of_extend refused
      · rename_i inner_fault inner_refused
        exact Except.error.inj refused ▸ invalid_of_ofExpression inner_refused

end

/-- A text that is no formula is refused as an invalid one, and for nothing else. -/
theorem invalid_of_ofText {s : String} {fault : Fault} (refused : ofText s = .error fault) :
    ∃ formula reason, fault = .invalidFormula formula reason := by
  rw [ofText] at refused
  cases read : Expression.ofText s with
  | ok e =>
    rw [read] at refused
    exact invalid_of_ofExpression refused
  | error fault' =>
    rw [read] at refused
    obtain rfl := Except.error.inj refused
    unfold Expression.ofText at read
    split at read
    · exact ⟨_, _, (Except.error.inj read).symm⟩
    · cases read
    · exact ⟨_, _, (Except.error.inj read).symm⟩

end Formula

/-! ## What derivations and formulas share -/

namespace Grammar

mutual

theorem Chain.items_formula : ∀ c : Chain, c.formula.expression.items = c.items
  | .of (.value v) rest => by
    rw [Chain.formula, Links.items_extend, Chain.items, Operand.items]
    rfl
  | .of (.group inner) rest => by
    rw [Chain.formula, Links.items_extend, Chain.items, Operand.items, ← Chain.items_formula inner]
    simp [Formula.expression, Formula.expressionThen, Expression.items]

theorem Links.items_extend : ∀ (rest : Links) (left : Formula),
    (rest.extend left).expression.items = left.expression.items ++ rest.items
  | .nil, left => by rw [Links.extend, Links.items, List.append_nil]
  | .cons op (.value v) rest, left => by
    rw [Links.extend, Links.items_extend rest, Links.items, Operand.items, Formula.expression,
      Formula.expressionThen, Formula.items_expressionThen]
    simp [Expression.items]
  | .cons op (.group inner) rest, left => by
    rw [Links.extend, Links.items_extend rest, Links.items, Operand.items,
      ← Chain.items_formula inner, Formula.expression, Formula.expressionThen,
      Formula.items_expressionThen]
    simp [Expression.items, Formula.expression]

end

/-- The formula with the items of a derivation is that of the derivation. -/
theorem Chain.formula_eq {c : Chain} {f : Formula} (same : f.expression.items = c.items) :
    c.formula = f := by
  rw [← Chain.items_formula] at same
  have read := Formula.ofExpression_eq_ok_iff.2 (Expression.items_injective same)
  have own := Formula.ofExpression_eq_ok_iff.2 (Eq.refl c.formula.expression)
  exact Except.ok.inj (own.symm.trans read)

/-- No text has two derivations. -/
theorem Chain.items_injective {c c' : Chain} (same : c.items = c'.items) : c = c' := by
  have formulas : c'.formula = c.formula := Chain.formula_eq (by rw [Chain.items_formula, same])
  rw [← chainThen_formula c, ← chainThen_formula c', formulas]

section Evaluation

variable {α : Type} [Quantity α] (look : String → Except Fault α)

mutual

theorem Chain.eval_formula : ∀ c : Chain, c.formula.eval look = c.eval look
  | .of (.value v) rest => by
    rw [Chain.formula, Links.eval_extend, Chain.eval, Operand.eval, Formula.eval]
  | .of (.group inner) rest => by
    rw [Chain.formula, Links.eval_extend, Chain.eval, Operand.eval, Formula.eval,
      Chain.eval_formula inner]

theorem Links.eval_extend : ∀ (rest : Links) (left : Formula),
    (rest.extend left).eval look = left.eval look >>= fun x => rest.evalFrom look x
  | .nil, left => by
    rw [Links.extend]
    cases left.eval look <;> rfl
  | .cons op (.value v) rest, left => by
    rw [Links.extend, Links.eval_extend rest, Formula.eval]
    cases left.eval look with
    | error fault => rfl
    | ok x =>
      show _ = Links.evalFrom look x (.cons op (.value v) rest)
      rw [Links.evalFrom, Operand.eval]
      cases v.eval look <;> rfl
  | .cons op (.group inner) rest, left => by
    rw [Links.extend, Links.eval_extend rest, Formula.eval, Chain.eval_formula inner]
    cases left.eval look with
    | error fault => rfl
    | ok x =>
      show _ = Links.evalFrom look x (.cons op (.group inner) rest)
      rw [Links.evalFrom, Operand.eval]
      cases inner.eval look <;> rfl

end

end Evaluation

end Grammar

/-- A text is a formula just if its items can be derived in the grammar, and otherwise is refused as
an invalid formula. There is one derivation then, and whatever the quantities and their operations
are, the formula has the quantity of the derivation, or the fault that it meets first. -/
theorem Formula.ofText_grammar (s : String) :
    ((∃ f, Formula.ofText s = .ok f) ↔ ∃ c : Chain, Item.Cut s.toList c.items) ∧
    (∀ fault, Formula.ofText s = .error fault →
      ∃ formula reason, fault = .invalidFormula formula reason) ∧
    (∀ c c' : Chain, Item.Cut s.toList c.items → Item.Cut s.toList c'.items → c = c') ∧
    ∀ f, Formula.ofText s = .ok f → ∀ c : Chain, Item.Cut s.toList c.items →
      ∀ {α : Type} [Quantity α] (look : String → Except Fault α), f.eval look = c.eval look := by
  simp only [Item.cut_iff, Formula.ofText_eq_ok_iff]
  refine ⟨⟨?_, ?_⟩, fun fault => Formula.invalid_of_ofText, ?_, ?_⟩
  · rintro ⟨f, read⟩
    refine ⟨chainThen f .nil, ?_⟩
    rw [← Chain.items_formula, formula_chainThen, Links.extend, read]
  · rintro ⟨c, derived⟩
    exact ⟨c.formula, by rw [Chain.items_formula, derived]⟩
  · intro c c' derived derived'
    exact Chain.items_injective (derived.trans derived'.symm)
  · intro f read c derived α _ look
    rw [← Chain.eval_formula, Chain.formula_eq (read.trans derived.symm)]

/-- `10 + (a - 3) * 2`, in which the sum is multiplied. -/
def Grammar.layered : Chain :=
  .of (.value (.whole "10"))
    (.cons .plus
      (.group (.of (.value (.reference "a")) (.cons .minus (.value (.whole "3")) .nil)))
      (.cons .times (.value (.whole "2")) .nil))

theorem Grammar.cut_layered : Item.Cut "10 + (a - 3)*2".toList layered.items :=
  Item.cut_iff.2 (by decide)

theorem Formula.ofText_grammar_layered :
    ∃ f, Formula.ofText "10 + (a - 3)*2" = .ok f ∧
      (∀ look : String → Except Fault Exact, f.eval look = layered.eval look) ∧
      f.eval (fun _ => .ok (.finite 5)) = .ok (Exact.finite 24) := by
  obtain ⟨accepted, -, -, evaluated⟩ := Formula.ofText_grammar "10 + (a - 3)*2"
  obtain ⟨f, read⟩ := accepted.2 ⟨layered, cut_layered⟩
  have same := evaluated f read layered cut_layered (α := Exact)
  exact ⟨f, read, same, (same _).trans (by decide +kernel)⟩

end StockFlow
