import StockFlow.Proofs.Spec.Items
import StockFlow.Proofs.Text.Joining

/-!
# The text of an expression

Writing an expression puts single spaces between its members and into groups nothing else. No value
reaches over a space or a parenthesis, so an expression that has been read is read from its own text
again (`Expression.ofText_text`), and the two texts differ in blanks only
(`Expression.filter_text_of_ofText`).
-/

namespace StockFlow.Spec

open StockFlow.Text

theorem Item.not_isPlain_space : ¬ IsPlain ' ' :=
  fun plain => absurd plain.1 (by decide)

theorem Item.not_isPlain_closing : ¬ IsPlain ')' :=
  fun plain => plain.2.2.1 rfl

theorem Item.scan_space (cs : List Char) : scan (' ' :: cs) = scan cs :=
  scan_mark (ofMark?_blank (by decide)) cs

theorem Item.IsWritten.scan_text {v : Value} (written : IsWritten v) :
    scan v.text.toList = [.value v] := by
  rw [scan_of_plain written.plain, ofRun_of_ne_nil written.filled, String.ofList_toList,
    written.read]

namespace Expression

open Item (IsPlain)

/-- All values are as texts hold them. -/
def IsWritten (e : Expression) : Prop :=
  ∀ v, .value v ∈ e.items → Item.IsWritten v

theorem isWritten_value_iff {v : Value} {rest : Expression} :
    (value v rest).IsWritten ↔ Item.IsWritten v ∧ rest.IsWritten := by
  simp [IsWritten, items, or_imp, forall_and]

theorem isWritten_operation_iff {op : Operator} {rest : Expression} :
    (operation op rest).IsWritten ↔ rest.IsWritten := by
  simp [IsWritten, items]

theorem isWritten_group_iff {inner rest : Expression} :
    (group inner rest).IsWritten ↔ inner.IsWritten ∧ rest.IsWritten := by
  simp [IsWritten, items, or_imp, forall_and]

/-- The values of an expression that has been read are those of its text. -/
theorem isWritten_of_ofText {s : String} {e : Expression} (read : ofText s = .ok e) :
    e.IsWritten := by
  intro v listed
  rw [ofText_eq_ok_iff.1 read] at listed
  exact (Item.cut_iff.2 rfl).isWritten listed

/-! ## Layout -/

/-- The members of a sequence as they follow another one, each behind a space. -/
def follow (e : Expression) : List Char :=
  e.words.flatMap fun word => ' ' :: word.toList

theorem toList_intercalate_cons (word : String) (words : List String) :
    (" ".intercalate (word :: words)).toList =
      word.toList ++ words.flatMap fun word => ' ' :: word.toList := by
  rw [String.toList_intercalate, List.map_cons, intercalate_cons, List.flatMap_map]
  rfl

theorem toList_text_value (v : Value) (rest : Expression) :
    (value v rest).text.toList = v.text.toList ++ rest.follow :=
  toList_intercalate_cons ..

theorem toList_text_operation (op : Operator) (rest : Expression) :
    (operation op rest).text.toList = op.sign :: rest.follow := by
  have sign : op.text.toList = [op.sign] := by simp [Operator.text]
  rw [text, words, toList_intercalate_cons, sign]
  rfl

theorem toList_text_group (inner rest : Expression) :
    (group inner rest).text.toList = '(' :: (inner.text.toList ++ ')' :: rest.follow) := by
  rw [text, words, toList_intercalate_cons, ← text]
  simp [follow]

/-- What follows another member is the text behind a space, if there is any. -/
theorem follow_eq (e : Expression) : e.follow = if e = nil then [] else ' ' :: e.text.toList := by
  cases e with
  | nil => rfl
  | value v rest => rw [toList_text_value]; rfl
  | operation op rest => rw [toList_text_operation]; simp [follow, words, Operator.text]
  | group inner rest => rw [toList_text_group]; simp [follow, words, text]

/-- No value that stands before the rest of an expression goes on there. -/
theorem bounded_follow (e : Expression) {more : List Char}
    (bounded : ∀ c ∈ more.head?, ¬ IsPlain c) :
    ∀ c ∈ (e.follow ++ more).head?, ¬ IsPlain c := by
  rw [follow_eq]
  split
  · exact bounded
  · rintro c same
    obtain rfl : ' ' = c := Option.some.inj same
    exact Item.not_isPlain_space

/-! ## Reading it again -/

theorem scan_text_append (e : Expression) (more : List Char) :
    Item.scan (e.text.toList ++ more) = Item.scan (e.follow ++ more) := by
  rw [follow_eq]
  split
  · rename_i empty
    rw [empty]
    rfl
  · rw [List.cons_append, Item.scan_space]

theorem scan_follow {e : Expression} (written : e.IsWritten)
    {more : List Char} (bounded : ∀ c ∈ more.head?, ¬ IsPlain c) :
    Item.scan (e.follow ++ more) = e.items ++ Item.scan more := by
  induction e generalizing more with
  | nil => rfl
  | value v rest ih =>
    obtain ⟨first, later⟩ := isWritten_value_iff.1 written
    have apart := bounded_follow rest bounded
    rw [follow_eq, if_neg nofun, toList_text_value, List.cons_append, Item.scan_space,
      List.append_assoc, Item.scan_append apart, first.scan_text, ih later bounded]
    rfl
  | operation op rest ih =>
    have later := isWritten_operation_iff.1 written
    rw [follow_eq, if_neg nofun, toList_text_operation, List.cons_append, Item.scan_space,
      List.cons_append, Item.scan_mark (Item.ofMark?_sign op), ih later bounded]
    rfl
  | group inner rest inner_ih ih =>
    obtain ⟨inside, later⟩ := isWritten_group_iff.1 written
    have closed : ∀ c ∈ (')' :: (rest.follow ++ more)).head?, ¬ IsPlain c := by
      rintro c same
      obtain rfl : ')' = c := Option.some.inj same
      exact Item.not_isPlain_closing
    have laid_out : (group inner rest).follow ++ more =
        ' ' :: '(' :: (inner.text.toList ++ ')' :: (rest.follow ++ more)) := by
      rw [follow_eq, if_neg nofun, toList_text_group]
      simp
    rw [laid_out, Item.scan_space, Item.scan_mark Item.ofMark?_opening, scan_text_append,
      inner_ih inside closed, Item.scan_mark Item.ofMark?_closing, ih later bounded]
    simp [items]

/-- The items of an expression are those of its text, whatever stands behind that. -/
theorem scan_text {e : Expression} (written : e.IsWritten)
    {more : List Char} (bounded : ∀ c ∈ more.head?, ¬ IsPlain c) :
    Item.scan (e.text.toList ++ more) = e.items ++ Item.scan more := by
  rw [scan_text_append, scan_follow written bounded]

theorem scan_text_self {e : Expression} (written : e.IsWritten) :
    Item.scan e.text.toList = e.items := by
  have again : Item.scan (e.text.toList ++ []) = e.items ++ Item.scan [] :=
    scan_text written (by simp)
  simpa [show Item.scan [] = [] from rfl] using again

/-- An expression that has been read is read from its text again. -/
theorem ofText_text {s : String} {e : Expression} (read : ofText s = .ok e) :
    ofText e.text = .ok e := by
  rw [ofText_eq_ok_iff, scan_text_self (isWritten_of_ofText read)]

/-! ## Nothing lost, nothing added -/

theorem filter_text (e : Expression) :
    e.text.toList.filter (· ≠ ' ') = e.follow.filter (· ≠ ' ') := by
  rw [follow_eq]
  split
  · rename_i empty
    rw [empty]
    rfl
  · rw [List.filter_cons_of_neg (by decide)]

theorem filter_follow (e : Expression) :
    e.follow.filter (· ≠ ' ') = (e.items.flatMap Item.spelled).filter (· ≠ ' ') := by
  induction e with
  | nil => rfl
  | value v rest ih =>
    rw [follow_eq, if_neg nofun, toList_text_value, List.filter_cons_of_neg (by decide),
      List.filter_append, ih, items, List.flatMap_cons, List.filter_append]
    rfl
  | operation op rest ih =>
    rw [follow_eq, if_neg nofun, toList_text_operation, List.filter_cons_of_neg (by decide),
      ← List.singleton_append, List.filter_append, ih, items, List.flatMap_cons, List.filter_append]
    rfl
  | group inner rest inner_ih ih =>
    rw [follow_eq, if_neg nofun, toList_text_group, List.filter_cons_of_neg (by decide),
      List.filter_cons_of_pos (by decide), List.filter_append, List.filter_cons_of_pos (by decide),
      filter_text, inner_ih, ih]
    simp [items, Item.spelled]

/-- The text of an expression that has been read differs from the one it was read from in blanks
only, and has no other blank than the space. -/
theorem filter_text_of_ofText {s : String} {e : Expression} (read : ofText s = .ok e) :
    e.text.toList.filter (· ≠ ' ') = s.toList.filter (!isBlank ·) := by
  rw [filter_text, filter_follow, ofText_eq_ok_iff.1 read, Item.flatMap_spelled_scan,
    List.filter_filter]
  refine List.filter_congr fun c _ => ?_
  by_cases space : c = ' '
  · subst space
    decide
  · simp [space]

end Expression

end StockFlow.Spec
