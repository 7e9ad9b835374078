import StockFlow.Formula.Definition
import StockFlow.Proofs.Formula.Grammar
import StockFlow.Proofs.Number.RoundTrip
import StockFlow.Proofs.Spec.Wholes

/-!
# Spellings of formulas

A formula that comes of a text, of a part of a text or of a double is read back from its spelling:
its values are such as texts hold, for a double is written in digits with a point between them and a
negative one is subtracted from zero. A whole number keeps its sign as if that were one of the
digits, so a negative one makes a value that no text holds, and its spelling is refused
(`Formula.ofText_spelling`).
-/

namespace StockFlow

open StockFlow.Spec StockFlow.Text StockFlow.Number

/-! ## Values of numbers -/

namespace Spec

theorem Item.isWritten_whole {digits : String} (spelled : AreDigits digits.toList) :
    IsWritten (.whole digits) where
  filled := spelled.1
  plain := spelled.isPlain
  read := by
    have read := Value.ofText_digits spelled
    rwa [String.ofList_toList] at read

theorem isPlain_of_mem_decimal {cs : List Char} (spelled : AreDecimal cs) :
    ∀ c ∈ cs, Item.IsPlain c := by
  obtain ⟨whole, fraction, rfl, digits, more⟩ := spelled
  have point : Item.IsPlain '.' := ⟨by decide, by decide, by decide, rfl⟩
  exact List.forall_mem_append.2 ⟨digits.isPlain, List.forall_mem_cons.2 ⟨point, more.isPlain⟩⟩

/-- A word that holds a point is a decimal if it is one. -/
theorem Value.ofWord_decimal {digits : String} (spelled : AreDecimal digits.toList) :
    ofWord digits = .decimal digits := by
  have pointed : '.' ∈ digits.toList := by
    obtain ⟨whole, fraction, written, -⟩ := spelled
    rw [written]
    exact List.mem_append_right _ (List.mem_cons_self ..)
  have unsigned : '-' ∉ digits.toList := fun listed =>
    absurd (isPlain_of_mem_decimal spelled '-' listed).2.2.2 nofun
  have finite : digits ≠ infinityText := by
    rintro rfl
    exact absurd pointed (by decide)
  have broken : ¬ isWhole digits.toList = true := fun whole =>
    absurd (((isWhole_iff unsigned).1 whole).2 '.' pointed) (by decide)
  rw [ofWord, if_neg finite, if_neg broken, if_pos (isDecimal_iff.2 spelled)]

theorem Item.isWritten_decimal {digits : String} (spelled : AreDecimal digits.toList) :
    IsWritten (.decimal digits) where
  filled := by
    obtain ⟨whole, fraction, written, -⟩ := spelled
    exact written ▸ List.append_ne_nil_of_right_ne_nil _ (List.cons_ne_nil _ _)
  plain := isPlain_of_mem_decimal spelled
  read := by
    have read := ofText_of_plain (isPlain_of_mem_decimal spelled)
    rwa [String.ofList_toList, Value.ofWord_decimal spelled] at read

theorem Item.isWritten_infinity : IsWritten .infinity where
  filled := by decide
  plain := by
    have letters : ∀ c ∈ ['i', 'n', 'f'], IsPlain c := fun c listed =>
      isPlain_of_isNamePart (List.all_eq_true.1 (by decide) c listed)
    exact letters
  read := by decide

/-! ## Parts of expressions -/

namespace Expression

/-- The groups of an expression, those inside other ones included. -/
def groups : Expression → List Expression
  | nil => []
  | value _ rest | operation _ rest => rest.groups
  | group inner rest => inner :: (inner.groups ++ rest.groups)

theorem IsWritten.of_mem_groups {e part : Expression} (written : e.IsWritten)
    (listed : part ∈ e.groups) : part.IsWritten := by
  induction e with
  | nil => cases listed
  | value v rest ih => exact ih (isWritten_value_iff.1 written).2 listed
  | operation op rest ih => exact ih (isWritten_operation_iff.1 written) listed
  | group inner rest inner_ih ih =>
    obtain ⟨inside, later⟩ := isWritten_group_iff.1 written
    rw [groups, List.mem_cons, List.mem_append] at listed
    rcases listed with rfl | deeper | behind
    · exact inside
    · exact inner_ih inside deeper
    · exact ih later behind

/-- The parts of an expression that has been read are written as it is. -/
theorem isWritten_of_part {s : String} {e : Expression} (read : ofText s = .ok e) :
    ∀ part ∈ e :: e.groups, part.IsWritten :=
  have written := isWritten_of_ofText read
  List.forall_mem_cons.2 ⟨written, fun _ => written.of_mem_groups⟩

end Expression

end Spec

/-! ## Reading a formula again -/

namespace Formula

/-- A formula with values as texts hold them is read from its spelling. -/
theorem ofText_spelling_of_isWritten {f : Formula} (written : f.expression.IsWritten) :
    ofText f.spelling = .ok f := by
  rw [ofText_eq_ok_iff, spelling, Expression.scan_text_self written]

theorem isWritten_of_ofExpression {e : Expression} {f : Formula} (made : ofExpression e = .ok f)
    (written : e.IsWritten) : f.expression.IsWritten :=
  (ofExpression_eq_ok_iff.1 made).symm ▸ written

theorem isWritten_of_ofText {s : String} {f : Formula} (read : ofText s = .ok f) :
    f.expression.IsWritten := by
  obtain ⟨e, scanned, made⟩ := bind_eq_ok_iff.1 read
  exact isWritten_of_ofExpression made (Expression.isWritten_of_ofText scanned)

theorem isWritten_value {v : Value} (written : Item.IsWritten v) :
    (value v).expression.IsWritten := by
  rw [expression, expressionThen, Expression.isWritten_value_iff]
  exact ⟨written, nofun⟩

theorem areDigits_zero : AreDigits ['0'] :=
  ⟨List.cons_ne_nil _ _, by simp⟩

theorem isWritten_negated {v : Value} (written : Item.IsWritten v) :
    (negated v).expression.IsWritten := by
  have zero : Item.IsWritten (.whole "0") := Item.isWritten_whole areDigits_zero
  simp only [negated, Formula.zero, expression, expressionThen, Expression.isWritten_value_iff,
    Expression.isWritten_operation_iff]
  exact ⟨zero, written, nofun⟩

/-- The size of a double is written in digits with a point between them. -/
theorem areDecimal_positionalText {x : Float} {negative : Bool} {m : ℕ} {q : ℤ}
    (finite : meaning x = .finite negative m q) : AreDecimal (positionalText x.abs).toList := by
  rw [positionalText, meaning_abs finite]
  change AreDecimal (String.ofList (if m = 0 then _ else _)).toList
  rw [String.toList_ofList]
  split
  · exact ⟨['0'], ['0'], rfl, areDigits_zero, areDigits_zero⟩
  · obtain ⟨whole, fraction, written, digits, more, -⟩ := exists_positional (shortest m q)
    exact ⟨whole, fraction, written, digits, more⟩

theorem isWritten_of_ofDouble {x : Float} {f : Formula} (made : ofDouble x = .ok f) :
    f.expression.IsWritten := by
  have size : x.isNaN = false →
      Item.IsWritten (if x.isInf then .infinity else .decimal (positionalText x.abs)) := by
    intro number
    split
    · exact Item.isWritten_infinity
    · rename_i bounded
      cases finite : meaning x with
      | nan => rw [isNaN_iff.2 finite] at number; cases number
      | infinite negative => exact absurd (isInf_iff.2 ⟨negative, finite⟩) bounded
      | finite negative m q => exact Item.isWritten_decimal (areDecimal_positionalText finite)
  unfold ofDouble at made
  split at made
  · cases made
  · rename_i number
    obtain rfl := Except.ok.inj made
    have written := size (Bool.eq_false_iff.2 number)
    split
    · exact isWritten_negated written
    · exact isWritten_value written

/-! ## Whole numbers -/

theorem eq_of_ofWhole {n : ℤ} {f : Formula} (made : ofWhole n = .ok f) :
    f = value (.whole (toString n)) := by
  unfold ofWhole at made
  split at made
  · exact (Except.ok.inj made).symm
  · cases made

theorem isWritten_of_ofWhole {n : ℤ} (natural : 0 ≤ n) {f : Formula} (made : ofWhole n = .ok f) :
    f.expression.IsWritten := by
  rw [eq_of_ofWhole made]
  refine isWritten_value (Item.isWritten_whole ?_)
  rw [toString_whole, if_neg (by simpa using natural), String.toList_ofList]
  exact areDigits_digitChars n.natAbs

/-- The sign of a negative number is read as an operation. -/
theorem ofText_negative {n : ℤ} (negative : n < 0) :
    ofText (toString n) = .error (.invalidFormula ("F(- " ++ toString n.natAbs ++ ")")
      FormulaFlaw.startsWithOperation.reason) := by
  have digits := areDigits_digitChars n.natAbs
  have size : toString n.natAbs = String.ofList (digitChars n.natAbs) :=
    Nat.toString_eq_ofList_toDigits
  have read : Expression.ofText (toString n) =
      .ok (.operation .minus (.value (.whole (toString n.natAbs)) .nil)) := by
    rw [Expression.ofText_eq_ok_iff, toString_whole, if_pos (by simpa using negative),
      String.toList_ofList]
    change _ = Item.scan (Operator.minus.sign :: _)
    rw [Item.scan_mark (Item.ofMark?_sign .minus), Item.scan_of_plain digits.isPlain,
      Item.ofRun_of_ne_nil digits.1, Value.ofText_digits digits, size]
    rfl
  rw [ofText, read]
  rfl

/-! ## Built formulas -/

/-- A formula built from a given value, or from an expression that scanning a text makes, be it the
whole text or a group inside. -/
inductive Built (f : Formula) : Prop where
  | datum {d : Datum} (made : ofDatum d = .ok f)
  | token {s : String} {e part : Expression} (read : Expression.ofText s = .ok e)
      (listed : part ∈ e :: e.groups) (made : ofExpression part = .ok f)

/-- Where a formula is no negative literal, its values are as texts hold them. -/
theorem Built.isWritten {f : Formula} (built : f.Built)
    (other : ∀ n : ℤ, n < 0 → f ≠ value (.whole (toString n))) : f.expression.IsWritten := by
  cases built with
  | token read listed made =>
    exact isWritten_of_ofExpression made (Expression.isWritten_of_part read _ listed)
  | @datum d made =>
    cases d with
    | text s => exact isWritten_of_ofText made
    | real x => exact isWritten_of_ofDouble made
    | whole n =>
      have natural : 0 ≤ n := Int.not_lt.1 fun negative => other n negative (eq_of_ofWhole made)
      exact isWritten_of_ofWhole natural made
    | _ => cases made

/-- A formula is read again from its spelling unless it is the literal of a negative whole number,
whose sign is read as an operation with nothing before it. -/
theorem ofText_spelling {f : Formula} (built : f.Built) :
    (ofText f.spelling = .ok f ↔ ∀ n : ℤ, n < 0 → f ≠ value (.whole (toString n))) ∧
    ∀ n : ℤ, n < 0 → f = value (.whole (toString n)) →
      ofText f.spelling = .error (.invalidFormula ("F(- " ++ toString n.natAbs ++ ")")
        FormulaFlaw.startsWithOperation.reason) := by
  have refused : ∀ n : ℤ, n < 0 → f = value (.whole (toString n)) →
      ofText f.spelling = .error (.invalidFormula ("F(- " ++ toString n.natAbs ++ ")")
        FormulaFlaw.startsWithOperation.reason) := by
    rintro n negative rfl
    exact ofText_negative negative
  refine ⟨⟨fun again n negative literal => ?_, fun other => ?_⟩, refused⟩
  · rw [refused n negative literal] at again
    cases again
  · exact ofText_spelling_of_isWritten (built.isWritten other)

/-- The expression of `a + 1`. -/
def plusOne : Expression :=
  .value (.reference "a") (.operation .plus (.value (.whole "1") .nil))

theorem ofText_spelling_signed :
    ofDatum (.real (-0.5)) = .ok (negated (.decimal "0.5")) ∧
      ofText "0 - 0.5" = .ok (negated (.decimal "0.5")) ∧
      ofDatum (.whole (-3)) = .ok (value (.whole "-3")) ∧
      ofText "-3" = .error (.invalidFormula "F(- 3)" "can't start with an operation") ∧
      Expression.ofText "(a+ 1)" = .ok (.group plusOne .nil) ∧
      ofText "a + 1" = .ok (thenValue (value (.reference "a")) .plus (.whole "1")) := by
  have half : ofDatum (.real (-0.5)) = .ok (negated (.decimal "0.5")) := by decide +kernel
  have three : ofDatum (.whole (-3)) = .ok (value (.whole "-3")) := by decide +kernel
  have scanned : Expression.ofText "(a+ 1)" = .ok (.group plusOne .nil) := by decide +kernel
  have inside : plusOne ∈ .group plusOne .nil :: Expression.groups (.group plusOne .nil) :=
    List.mem_cons_of_mem _ (List.mem_cons_self ..)
  have refused := (ofText_spelling (.datum three)).2 (-3) (by decide) (by decide +kernel)
  refine ⟨half, (ofText_spelling (.datum half)).1.2 nofun, three,
    refused.trans (by decide +kernel), scanned, ?_⟩
  exact (ofText_spelling (.token scanned inside rfl)).1.2 nofun

/-- A formula built from a negative whole number is not read again. -/
theorem not_ofText_spelling : ¬ ∀ f : Formula, f.Built → ofText f.spelling = .ok f := by
  intro always
  have made : ofDatum (.whole (-3)) = .ok (value (.whole "-3")) := by decide +kernel
  have again := always _ (.datum made)
  exact absurd again (by decide +kernel)

end Formula

end StockFlow
