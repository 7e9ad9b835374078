import StockFlow.Spec.Expression

/-!
# Items of a text

A text is cut into items in one way (`Item.cut_iff`), its characters all kept except blanks
(`Item.flatMap_spelled_scan`). The expression that a text spells is the one with the items of the
text (`Expression.ofText_eq_ok_iff`), for nesting loses none (`Nesting.items_of_foldlM`) and finds
every expression again (`Expression.foldlM_items`).
-/

namespace StockFlow.Spec

open StockFlow.Text

theorem Operator.eq_sign_of_ofChar? {c : Char} {op : Operator} (h : ofChar? c = some op) :
    c = op.sign := by
  unfold ofChar? at h
  split at h <;> cases h <;> rfl

namespace Item

/-- A character of a value: no blank, no parenthesis and no sign of an operator. -/
def IsPlain (c : Char) : Prop :=
  isBlank c = false ∧ c ≠ '(' ∧ c ≠ ')' ∧ Operator.ofChar? c = none

theorem ofMark?_eq_none_iff {c : Char} : ofMark? c = none ↔ IsPlain c := by
  unfold ofMark? IsPlain
  by_cases opens : c = '('
  · simp [opens]
  by_cases closes : c = ')'
  · simp [closes]
  cases blank : isBlank c with
  | true => simp [opens, closes]
  | false => simp [opens, closes]

theorem ofMark?_opening : ofMark? '(' = some [opening] :=
  rfl

theorem ofMark?_closing : ofMark? ')' = some [closing] :=
  rfl

theorem ofMark?_sign (op : Operator) : ofMark? op.sign = some [operation op] := by
  cases op <;> decide

/-- A blank makes no item. -/
theorem ofMark?_blank {c : Char} (blank : isBlank c = true) : ofMark? c = some [] := by
  have opens : c ≠ '(' := by
    rintro rfl
    exact absurd blank (by decide)
  have closes : c ≠ ')' := by
    rintro rfl
    exact absurd blank (by decide)
  simp [ofMark?, opens, closes, blank]

/-- The items of a text, by the rules: blanks part them, parentheses and signs stand for themselves,
and a value is a longest run of other characters. -/
inductive Cut : List Char → List Item → Prop where
  | nil : Cut [] []
  | blank {c cs items} : isBlank c = true → Cut cs items → Cut (c :: cs) items
  | opening {cs items} : Cut cs items → Cut ('(' :: cs) (.opening :: items)
  | closing {cs items} : Cut cs items → Cut (')' :: cs) (.closing :: items)
  | operation (op) {cs items} : Cut cs items → Cut (op.sign :: cs) (.operation op :: items)
  | value {run cs items} : run ≠ [] → (∀ c ∈ run, IsPlain c) → (∀ c ∈ cs.head?, ¬ IsPlain c) →
      Cut cs items → Cut (run ++ cs) (.value (.ofText (.ofList run)) :: items)

theorem Cut.mark {c : Char} {marks : List Item} (mark : ofMark? c = some marks) {cs : List Char}
    {items : List Item} (cut : Cut cs items) : Cut (c :: cs) (marks ++ items) := by
  unfold ofMark? at mark
  split at mark
  · rename_i opens
    obtain rfl := Option.some.inj mark
    exact opens ▸ cut.opening
  split at mark
  · rename_i closes
    obtain rfl := Option.some.inj mark
    exact closes ▸ cut.closing
  split at mark
  · rename_i blank
    obtain rfl := Option.some.inj mark
    exact cut.blank blank
  · obtain ⟨op, sign, rfl⟩ := Option.map_eq_some_iff.1 mark
    exact Operator.eq_sign_of_ofChar? sign ▸ cut.operation op

/-! ## Scanning -/

theorem ofRun_of_ne_nil {run : List Char} (filled : run ≠ []) :
    ofRun run = [.value (.ofText (.ofList run))] := by
  simp [ofRun, filled]

theorem scan_mark {c : Char} {marks : List Item} (mark : ofMark? c = some marks) (cs : List Char) :
    scan (c :: cs) = marks ++ scan cs := by
  simp [scan, scanFrom, mark, ofRun]

/-- Blanks alone make no items. -/
theorem scan_of_blank {cs : List Char} (blank : ∀ c ∈ cs, isBlank c = true) : scan cs = [] := by
  induction cs with
  | nil => rfl
  | cons c rest ih =>
    have here := ofMark?_blank (blank c (List.mem_cons_self ..))
    rw [scan_mark here, List.nil_append, ih fun d h => blank d (List.mem_cons_of_mem _ h)]

/-- A value ends where a character comes that it may not hold. -/
theorem scanFrom_of_bounded {cs : List Char} (bounded : ∀ c ∈ cs.head?, ¬ IsPlain c)
    (run : List Char) : scanFrom run cs = ofRun run ++ scan cs := by
  cases cs with
  | nil => simp [scan, scanFrom, ofRun]
  | cons c rest =>
    cases mark : ofMark? c with
    | none => exact absurd (ofMark?_eq_none_iff.1 mark) (bounded c rfl)
    | some marks => simp [scan, scanFrom, mark, ofRun]

theorem scanFrom_append {more : List Char} (bounded : ∀ c ∈ more.head?, ¬ IsPlain c)
    (run cs : List Char) : scanFrom run (cs ++ more) = scanFrom run cs ++ scan more := by
  induction cs generalizing run with
  | nil => exact scanFrom_of_bounded bounded run
  | cons c rest ih =>
    cases mark : ofMark? c with
    | none => simp [scanFrom, mark, ih]
    | some marks => simp [scanFrom, mark, ih]

/-- Two texts are scanned one by one if no value reaches from the first into the second. -/
theorem scan_append {more : List Char} (bounded : ∀ c ∈ more.head?, ¬ IsPlain c) (cs : List Char) :
    scan (cs ++ more) = scan cs ++ scan more :=
  scanFrom_append bounded [] cs

theorem scanFrom_of_plain {more : List Char} (plain : ∀ c ∈ more, IsPlain c) (run : List Char) :
    scanFrom run more = ofRun (run ++ more) := by
  induction more generalizing run with
  | nil => rw [List.append_nil, scanFrom]
  | cons c rest ih =>
    have none := ofMark?_eq_none_iff.2 (plain c (List.mem_cons_self ..))
    rw [scanFrom, none]
    simp [ih fun c h => plain c (List.mem_cons_of_mem _ h)]

theorem scan_of_plain {run : List Char} (plain : ∀ c ∈ run, IsPlain c) : scan run = ofRun run :=
  scanFrom_of_plain plain []

theorem cut_scanFrom {run : List Char} (plain : ∀ c ∈ run, IsPlain c) (cs : List Char) :
    Cut (run ++ cs) (scanFrom run cs) := by
  have start : ∀ {cs items}, (∀ c ∈ cs.head?, ¬ IsPlain c) → Cut cs items →
      ∀ run, (∀ c ∈ run, IsPlain c) → Cut (run ++ cs) (ofRun run ++ items) := by
    intro cs items bounded cut run plain
    by_cases empty : run = []
    · subst empty
      exact cut
    · rw [ofRun_of_ne_nil empty]
      exact .value empty plain bounded cut
  induction cs generalizing run with
  | nil => simpa [scanFrom] using start (by simp) .nil run plain
  | cons c rest ih =>
    cases mark : ofMark? c with
    | none =>
      have longer : ∀ c' ∈ run ++ [c], IsPlain c' := by
        intro c' listed
        rcases List.mem_append.1 listed with before | here
        · exact plain c' before
        · rw [List.mem_singleton.1 here]
          exact ofMark?_eq_none_iff.1 mark
      have cut := ih longer
      rw [List.append_assoc, List.singleton_append] at cut
      simpa [scanFrom, mark] using cut
    | some marks =>
      have bounded : ∀ c' ∈ (c :: rest).head?, ¬ IsPlain c' := by
        rintro c' same
        obtain rfl := Option.some.inj same
        rw [← ofMark?_eq_none_iff, mark]
        exact nofun
      have cut := start bounded ((@ih [] (by simp)).mark mark) run plain
      simpa [scanFrom, mark] using cut

/-- The rules cut a text in one way, which is how it is scanned. -/
theorem cut_iff {cs : List Char} {items : List Item} : Cut cs items ↔ items = scan cs := by
  constructor
  · intro cut
    induction cut with
    | nil => rfl
    | blank blank _ ih => rw [scan_mark (ofMark?_blank blank), ih, List.nil_append]
    | opening _ ih => rw [scan_mark ofMark?_opening, ih, List.singleton_append]
    | closing _ ih => rw [scan_mark ofMark?_closing, ih, List.singleton_append]
    | operation op _ ih => rw [scan_mark (ofMark?_sign op), ih, List.singleton_append]
    | value filled plain bounded _ ih =>
      rw [scan_append bounded, scan_of_plain plain, ofRun_of_ne_nil filled, ih,
        List.singleton_append]
  · rintro rfl
    exact cut_scanFrom (List.forall_mem_nil _) cs

/-! ## Spelling -/

/-- The characters that an item is spelled with. -/
def spelled : Item → List Char
  | value v => v.text.toList
  | operation op => [op.sign]
  | opening => ['(']
  | closing => [')']

theorem isBlank_sign (op : Operator) : isBlank op.sign = false := by
  cases op <;> decide

/-- Nothing has to be dropped from the ends of a run of characters of a value. -/
theorem ofText_of_plain {run : List Char} (plain : ∀ c ∈ run, IsPlain c) :
    Value.ofText (.ofList run) = Value.ofWord (.ofList run) := by
  have whole : trimBy isBlank run = run := trimBy_eq_self
    (fun c first => (plain c (List.mem_of_head? first)).1)
    (fun c last => (plain c (List.mem_of_getLast? last)).1)
  rw [Value.ofText, strip, String.toList_ofList, whole]

theorem text_ofText {run : List Char} (plain : ∀ c ∈ run, IsPlain c) :
    (Value.ofText (.ofList run)).text = .ofList run := by
  rw [ofText_of_plain plain, Value.text_ofWord]

theorem Cut.flatMap_spelled {cs : List Char} {items : List Item} (cut : Cut cs items) :
    items.flatMap spelled = cs.filter (!isBlank ·) := by
  induction cut with
  | nil => rfl
  | blank blank _ ih => rw [ih, List.filter_cons_of_neg (by simp [blank])]
  | opening _ ih => rw [List.flatMap_cons, ih, List.filter_cons_of_pos (by decide)]; rfl
  | closing _ ih => rw [List.flatMap_cons, ih, List.filter_cons_of_pos (by decide)]; rfl
  | operation op _ ih =>
    rw [List.flatMap_cons, ih, List.filter_cons_of_pos (by simp [isBlank_sign])]
    rfl
  | @value run cs items _ plain _ _ ih =>
    have kept : run.filter (!isBlank ·) = run := List.filter_eq_self.2 fun c h => by
      simp [(plain c h).1]
    rw [List.flatMap_cons, ih, List.filter_append, kept, spelled, text_ofText plain,
      String.toList_ofList]

/-- Scanning drops blanks and nothing else. -/
theorem flatMap_spelled_scan (cs : List Char) :
    (scan cs).flatMap spelled = cs.filter (!isBlank ·) :=
  (cut_iff.2 rfl).flatMap_spelled

/-- A value as texts hold it: a run of its characters that is read as the value. -/
structure IsWritten (v : Value) : Prop where
  filled : v.text.toList ≠ []
  plain : ∀ c ∈ v.text.toList, IsPlain c
  read : .ofText v.text = v

theorem Cut.isWritten {cs : List Char} {items : List Item} (cut : Cut cs items) {v : Value}
    (listed : .value v ∈ items) : IsWritten v := by
  induction cut with
  | nil => cases listed
  | blank _ _ ih => exact ih listed
  | opening _ ih | closing _ ih | operation _ _ ih => exact ih (by simpa using listed)
  | @value run cs items filled plain _ _ ih =>
    rcases List.mem_cons.1 listed with here | later
    · obtain rfl := Item.value.inj here
      have same := text_ofText plain
      exact ⟨by rwa [same, String.toList_ofList], by rwa [same, String.toList_ofList], by rw [same]⟩
    · exact ih later

end Item

/-! ## Nesting -/

/-- The items of an expression, a group between its parentheses. -/
def Expression.items : Expression → List Item
  | nil => []
  | value v rest => .value v :: rest.items
  | operation op rest => .operation op :: rest.items
  | group inner rest => .opening :: (inner.items ++ .closing :: rest.items)

theorem Expression.items_append (e f : Expression) : (e ++ f).items = e.items ++ f.items := by
  show (e.append f).items = _
  induction e with
  | nil => rfl
  | value v rest ih => simp [append, items, ih]
  | operation op rest ih => simp [append, items, ih]
  | group inner rest _ ih => simp [append, items, ih]

namespace Nesting

/-- The items of the sequences around the one being read, the innermost first in the list. -/
def outerItems : List Expression → List Item
  | [] => []
  | around :: outer => outerItems outer ++ around.items ++ [.opening]

/-- All items that have been read. -/
def items (nesting : Nesting) : List Item :=
  outerItems nesting.outer ++ nesting.current.items

theorem items_of_step {nesting next : Nesting} {item : Item}
    (read : nesting.step item = some next) :
    next.items = nesting.items ++ [item] := by
  obtain ⟨current, outer⟩ := nesting
  cases item with
  | value v =>
    obtain rfl := Option.some.inj read
    simp [items, Expression.items_append, Expression.items]
  | operation op =>
    obtain rfl := Option.some.inj read
    simp [items, Expression.items_append, Expression.items]
  | opening =>
    obtain rfl := Option.some.inj read
    simp [items, outerItems, Expression.items]
  | closing =>
    cases outer with
    | nil => cases read
    | cons around outer =>
      obtain rfl := Option.some.inj read
      simp [items, outerItems, Expression.items_append, Expression.items]

/-- Reading loses no item. -/
theorem items_of_foldlM {nesting last : Nesting} {read : List Item}
    (done : read.foldlM step nesting = some last) : last.items = nesting.items ++ read := by
  induction read generalizing nesting with
  | nil => simp [← Option.some.inj done]
  | cons item rest ih =>
    rw [List.foldlM_cons] at done
    obtain ⟨next, first, done⟩ := Option.bind_eq_some_iff.1 done
    rw [ih done, items_of_step first, List.append_assoc, List.singleton_append]

end Nesting

namespace Expression

/-- Reading the items of an expression puts it behind what has been read. -/
theorem foldlM_items (e : Expression) (nesting : Nesting) :
    e.items.foldlM Nesting.step nesting = some ⟨nesting.current ++ e, nesting.outer⟩ := by
  induction e generalizing nesting with
  | nil => simp [items, append_nil]
  | value v rest ih =>
    rw [items, List.foldlM_cons]
    simp [Nesting.step, ih, append_assoc, show value v nil ++ rest = value v rest from rfl]
  | operation op rest ih =>
    rw [items, List.foldlM_cons]
    simp [Nesting.step, ih, append_assoc,
      show operation op nil ++ rest = operation op rest from rfl]
  | group inner rest inner_ih ih =>
    rw [items, List.foldlM_cons, Nesting.step]
    simp only [Option.bind_eq_bind, Option.bind_some, List.foldlM_append, List.foldlM_cons,
      inner_ih]
    simp [Nesting.step, ih, append_assoc, nil_append,
      show group inner nil ++ rest = group inner rest from rfl]

/-- The expression that a text spells has the items of the text. -/
theorem ofText_eq_ok_iff {s : String} {e : Expression} :
    ofText s = .ok e ↔ e.items = Item.scan s.toList := by
  unfold ofText
  constructor
  · intro read
    split at read
    · cases read
    · rename_i nested
      obtain rfl := Except.ok.inj read
      exact Nesting.items_of_foldlM nested
    · cases read
  · intro same
    rw [← same, foldlM_items]
    rfl

/-- No two expressions have the same items. -/
theorem items_injective {e f : Expression} (same : e.items = f.items) : e = f := by
  have read := foldlM_items e .start
  rw [same, foldlM_items] at read
  exact (congrArg Nesting.current (Option.some.inj read)).symm

end Expression

end StockFlow.Spec
