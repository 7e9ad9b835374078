import Mathlib.Data.List.Basic
import StockFlow.Proofs.Spec.Items

/-!
# Parentheses of an expression

Reading an expression fails for its parentheses only: where a prefix of the text closes more of them
than it opens, and else where the whole leaves some open (`Expression.ofText_balanced`). What the
reader keeps while it goes along a text is how many groups are open around the place
(`Nesting.length_outer_of_foldlM`); the text itself is kept in the groups read so far, so that an
expression written out is the text without its blanks.
-/

namespace StockFlow.Spec

open StockFlow.Text

/-- Some prefix closes more parentheses than it opens. -/
def Overclosed (cs : List Char) : Prop :=
  ∃ front, front <+: cs ∧ front.count '(' < front.count ')'

/-- No prefix closes more parentheses than it opens, and the whole closes all that it opens. -/
def Balanced (cs : List Char) : Prop :=
  ¬ Overclosed cs ∧ cs.count '(' = cs.count ')'

/-! ## Groups open around a place -/

/-- A prefix is empty or goes on with a prefix of the rest. -/
theorem exists_prefix_cons_iff {α : Type} {P : List α → Prop} {a : α} {rest : List α} :
    (∃ front, front <+: a :: rest ∧ P front) ↔ P [] ∨ ∃ front, front <+: rest ∧ P (a :: front) := by
  constructor
  · rintro ⟨front, begins, holds⟩
    rcases List.prefix_cons_iff.1 begins with rfl | ⟨later, rfl, begins_later⟩
    · exact .inl holds
    · exact .inr ⟨later, begins_later, holds⟩
  · rintro (holds | ⟨front, begins, holds⟩)
    · exact ⟨[], List.nil_prefix, holds⟩
    · exact ⟨a :: front, List.cons_prefix_cons.2 ⟨rfl, begins⟩, holds⟩

namespace Nesting

/-- What is open after an item and what it closes make up what was open before and what it opens. -/
theorem length_outer_of_step {nesting next : Nesting} {item : Item}
    (read : nesting.step item = some next) :
    next.outer.length + [item].count .closing = nesting.outer.length + [item].count .opening := by
  obtain ⟨current, outer⟩ := nesting
  cases item with
  | value v =>
    obtain rfl := Option.some.inj read
    rfl
  | operation op =>
    obtain rfl := Option.some.inj read
    rfl
  | opening =>
    obtain rfl := Option.some.inj read
    rfl
  | closing =>
    cases outer with
    | nil => cases read
    | cons around outer =>
      obtain rfl := Option.some.inj read
      rfl

/-- Only a parenthesis that closes no group is refused. -/
theorem step_eq_none_iff {nesting : Nesting} {item : Item} :
    nesting.step item = none ↔ item = .closing ∧ nesting.outer = [] := by
  obtain ⟨current, outer⟩ := nesting
  cases item <;> cases outer <;> simp [step]

theorem length_outer_of_foldlM {nesting last : Nesting} {read : List Item}
    (done : read.foldlM step nesting = some last) :
    last.outer.length + read.count .closing = nesting.outer.length + read.count .opening := by
  induction read generalizing nesting with
  | nil =>
    obtain rfl := Option.some.inj done
    rfl
  | cons item rest ih =>
    rw [List.foldlM_cons] at done
    obtain ⟨next, first, done⟩ := Option.bind_eq_some_iff.1 done
    have here := length_outer_of_step first
    have later := ih done
    rw [← List.singleton_append, List.count_append, List.count_append]
    omega

/-- Reading is refused just if somewhere more groups have been closed than were open or opened. -/
theorem foldlM_eq_none_iff {nesting : Nesting} {items : List Item} :
    items.foldlM step nesting = none ↔
      ∃ front, front <+: items ∧
        nesting.outer.length + front.count .opening < front.count .closing := by
  induction items generalizing nesting with
  | nil => simp
  | cons item rest ih =>
    rw [exists_prefix_cons_iff, List.foldlM_cons]
    cases read : nesting.step item with
    | none =>
      obtain ⟨rfl, none_open⟩ := step_eq_none_iff.1 read
      refine iff_of_true rfl (.inr ⟨[], List.nil_prefix, ?_⟩)
      simp [none_open]
    | some next =>
      have here := length_outer_of_step read
      rw [Option.bind_eq_bind, Option.bind_some, ih]
      have moved : ∀ front : List Item,
          next.outer.length + front.count .opening < front.count .closing ↔
            nesting.outer.length + (item :: front).count .opening <
              (item :: front).count .closing := by
        intro front
        rw [← List.singleton_append, List.count_append, List.count_append]
        omega
      simp [moved]

end Nesting

/-! ## Parentheses of a text -/

/-- A character that opens or closes a group. -/
def isParenthesis (c : Char) : Bool :=
  c = '(' || c = ')'

/-- The parenthesis that an item is. -/
def Item.parenthesis? : Item → Option Char
  | opening => some '('
  | closing => some ')'
  | _ => none

namespace Item

theorem isParenthesis_eq_false {c : Char} (plain : IsPlain c) : isParenthesis c = false := by
  simp [isParenthesis, plain.2.1, plain.2.2.1]

/-- Cutting a text into items keeps its parentheses and makes no others. -/
theorem Cut.filterMap_parenthesis? {cs : List Char} {items : List Item} (cut : Cut cs items) :
    items.filterMap parenthesis? = cs.filter isParenthesis := by
  induction cut with
  | nil => rfl
  | @blank c _ _ blank _ ih =>
    have other : isParenthesis c = false := by
      by_contra marks
      simp only [isParenthesis, Bool.not_eq_false, Bool.or_eq_true, decide_eq_true_eq] at marks
      rcases marks with rfl | rfl <;> exact absurd blank (by decide)
    rw [ih, List.filter_cons_of_neg (by simp [other])]
  | opening _ ih =>
    rw [List.filter_cons_of_pos (by decide), ← ih]
    rfl
  | closing _ ih =>
    rw [List.filter_cons_of_pos (by decide), ← ih]
    rfl
  | operation op _ ih =>
    have other : isParenthesis op.sign = false := by cases op <;> decide
    rw [List.filter_cons_of_neg (by simp [other]), ← ih]
    rfl
  | @value run _ _ _ plain _ _ ih =>
    have none : run.filter isParenthesis = [] := List.filter_eq_nil_iff.2 fun c listed => by
      simp [isParenthesis_eq_false (plain c listed)]
    rw [List.filter_append, none, List.nil_append, ← ih]
    rfl

theorem count_opening (items : List Item) :
    items.count .opening = (items.filterMap parenthesis?).count '(' := by
  rw [List.count_filterMap, List.count]
  refine List.countP_congr fun item _ => ?_
  cases item <;> simp [parenthesis?]

theorem count_closing (items : List Item) :
    items.count .closing = (items.filterMap parenthesis?).count ')' := by
  rw [List.count_filterMap, List.count]
  refine List.countP_congr fun item _ => ?_
  cases item <;> simp [parenthesis?]

end Item

theorem count_filter_isParenthesis {c : Char} (marks : isParenthesis c = true) (cs : List Char) :
    (cs.filter isParenthesis).count c = cs.count c :=
  List.count_filter marks

/-- A text is overclosed just if its items are. -/
theorem overclosed_iff {cs : List Char} :
    Overclosed cs ↔ ∃ front, front <+: Item.scan cs ∧
      front.count Item.opening < front.count .closing := by
  have kept := (Item.cut_iff.2 (Eq.refl (Item.scan cs))).filterMap_parenthesis?
  constructor
  · rintro ⟨front, begins, more⟩
    have begins : front.filter isParenthesis <+: (Item.scan cs).filterMap Item.parenthesis? :=
      kept ▸ begins.filter _
    obtain ⟨items, cut, same⟩ := List.prefix_filterMap_iff.1 begins
    refine ⟨items, cut, ?_⟩
    rwa [Item.count_opening, Item.count_closing, ← same, count_filter_isParenthesis rfl,
      count_filter_isParenthesis rfl]
  · rintro ⟨items, cut, more⟩
    have begins : items.filterMap Item.parenthesis? <+: cs.filter isParenthesis :=
      kept ▸ cut.filterMap _
    obtain ⟨front, begins, same⟩ := List.prefix_filter_iff.1 begins
    refine ⟨front, begins, ?_⟩
    rwa [Item.count_opening, Item.count_closing, same, count_filter_isParenthesis rfl,
      count_filter_isParenthesis rfl] at more

theorem count_scan (cs : List Char) :
    (Item.scan cs).count .opening = cs.count '(' ∧ (Item.scan cs).count .closing = cs.count ')' := by
  have kept := (Item.cut_iff.2 (Eq.refl (Item.scan cs))).filterMap_parenthesis?
  rw [Item.count_opening, Item.count_closing, kept, count_filter_isParenthesis rfl,
    count_filter_isParenthesis rfl]
  exact ⟨rfl, rfl⟩

namespace Expression

/-- The members of a sequence without blanks, a group between its parentheses. -/
def written : Expression → List Char
  | nil => []
  | value v rest => v.text.toList ++ rest.written
  | operation op rest => op.sign :: rest.written
  | group inner rest => '(' :: (inner.written ++ ')' :: rest.written)

theorem written_eq (e : Expression) : e.written = e.items.flatMap Item.spelled := by
  induction e with
  | nil => rfl
  | value v rest ih => simp [written, items, Item.spelled, ih]
  | operation op rest ih => simp [written, items, Item.spelled, ih]
  | group inner rest inner_ih ih => simp [written, items, Item.spelled, inner_ih, ih]

/-- Reading comes to one of three ends, told apart by the parentheses of the text. -/
theorem ofText_cases (s : String) :
    Overclosed s.toList ∧ ofText s = .error (.invalidFormula s "unmatched closing parenthesis") ∨
      ¬ Overclosed s.toList ∧ s.toList.count '(' ≠ s.toList.count ')' ∧
        ofText s = .error (.invalidFormula s "unclosed parenthesis") ∨
      Balanced s.toList ∧ ∃ e, ofText s = .ok e := by
  have refused : (Item.scan s.toList).foldlM Nesting.step Nesting.start = none ↔ _ :=
    Nesting.foldlM_eq_none_iff
  simp only [Nesting.start, List.length_nil, Nat.zero_add, ← overclosed_iff] at refused
  unfold ofText
  cases read : (Item.scan s.toList).foldlM Nesting.step Nesting.start with
  | none => exact .inl ⟨refused.1 read, rfl⟩
  | some last =>
    have sound : ¬ Overclosed s.toList := by
      rw [← refused]
      exact fun none => nomatch read.symm.trans none
    have left := Nesting.length_outer_of_foldlM read
    obtain ⟨opened, closed⟩ := count_scan s.toList
    rw [opened, closed, Nesting.start, List.length_nil] at left
    obtain ⟨e, outer⟩ := last
    cases outer with
    | nil =>
      refine .inr (.inr ⟨⟨sound, ?_⟩, e, rfl⟩)
      simp only [List.length_nil] at left
      omega
    | cons around outer =>
      refine .inr (.inl ⟨sound, ?_, rfl⟩)
      simp only [List.length_cons] at left
      omega

/-- A text is an expression just if its parentheses are balanced. Otherwise it is refused for a
closing one where a prefix closes more than it opens, and else for an open one. The expression,
written out, is the text without its blanks. -/
theorem ofText_balanced (s : String) :
    ((∃ e, ofText s = .ok e) ↔ Balanced s.toList) ∧
    (ofText s = .error (.invalidFormula s "unmatched closing parenthesis") ↔ Overclosed s.toList) ∧
    (ofText s = .error (.invalidFormula s "unclosed parenthesis") ↔
      ¬ Overclosed s.toList ∧ ¬ Balanced s.toList) ∧
    ∀ e, ofText s = .ok e → e.written = s.toList.filter (!isBlank ·) := by
  have written_back : ∀ e, ofText s = .ok e → e.written = s.toList.filter (!isBlank ·) := by
    intro e read
    rw [written_eq, ofText_eq_ok_iff.1 read, Item.flatMap_spelled_scan]
  rcases ofText_cases s with ⟨overclosed, failed⟩ | ⟨sound, differ, failed⟩ | ⟨balanced, e, read⟩
  · have unbalanced : ¬ Balanced s.toList := fun balanced => balanced.1 overclosed
    exact ⟨by simp [failed, unbalanced], by simp [failed, overclosed], by simp [failed, overclosed],
      written_back⟩
  · have unbalanced : ¬ Balanced s.toList := fun balanced => differ balanced.2
    exact ⟨by simp [failed, unbalanced], by simp [failed, sound], by simp [failed, sound, unbalanced],
      written_back⟩
  · exact ⟨by simp [read, balanced], by simp [read, balanced.1], by simp [read, balanced],
      written_back⟩

/-- `a*((b) - 12)` -/
def nested : Expression :=
  .value (.reference "a") (.operation .times (.group
    (.group (.value (.reference "b") .nil) (.operation .minus (.value (.whole "12") .nil))) .nil))

theorem ofText_nested : ofText "a*( (b) - 12 )" = .ok nested :=
  ofText_eq_ok_iff.2 (by decide)

theorem ofText_balanced_nested :
    Balanced "a*( (b) - 12 )".toList ∧ ofText "a*( (b) - 12 )" = .ok nested ∧
      nested.written = "a*((b)-12)".toList := by
  obtain ⟨accepted, -, -, written_back⟩ := ofText_balanced "a*( (b) - 12 )"
  refine ⟨accepted.1 ⟨nested, ofText_nested⟩, ofText_nested, ?_⟩
  rw [written_back nested ofText_nested]
  decide

end Expression

end StockFlow.Spec
