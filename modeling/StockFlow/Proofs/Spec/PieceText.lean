import StockFlow.Proofs.Spec.Calls

/-!
# The text of a piece

A stock or a flow that has been read is read from its own text again (`StockPiece.ofChars_text`,
`FlowPiece.ofChars_text`), and the two texts differ in blanks only. A flow without a label gets no
label by that, for what it writes first is no name with a parenthesis right behind it
(`isLabeled_bareParameters`).
-/

namespace StockFlow.Spec

open StockFlow.Text

/-! ## Stocks -/

/-- What a stock is read from, blanks at the ends apart. -/
theorem StockPiece.of_ofChars_eq_ok {cs : List Char} {stock : StockPiece}
    (read : ofChars cs = .ok stock) :
    (∃ name inner, trimBy isBlank cs = '[' :: (inner ++ [']']) ∧ trimBy isBlank inner = name ∧
        IsNameChars name ∧ stock = .infinite (.ofList name)) ∨
      ∃ name given, call (trimBy isBlank cs) = .ok (name, given) ∧ stock = .finite name given := by
  unfold ofChars at read
  simp only at read
  split at read
  · rename_i inner marks
    split at read
    · rename_i named
      exact .inl ⟨_, inner, between?_eq_some_iff.1 marks, rfl, isName_iff.1 named,
        (Except.ok.inj read).symm⟩
    · cases read
  · obtain ⟨⟨name, given⟩, called, same⟩ := map_eq_ok_iff.1 read
    exact .inr ⟨name, given, called, same.symm⟩

theorem StockPiece.ofChars_infinite {name : List Char} (named : IsNameChars name) :
    ofChars ('[' :: (name ++ [']'])) = .ok (.infinite (.ofList name)) := by
  have ends : trimBy isBlank ('[' :: (name ++ [']'])) = '[' :: (name ++ [']']) :=
    trimBy_eq_self (by simp; decide) (by
      rw [← List.nil_append ('[' :: _), getLast?_append_marks]
      simp
      decide)
  have marks : between? '[' ']' ('[' :: (name ++ [']'])) = some name := between?_eq_some_iff.2 rfl
  have inside : trimBy isBlank name = name := trimBy_eq_self
    (fun c first => named.isBlank_of_mem (List.mem_of_head? first))
    (fun c last => named.isBlank_of_mem (List.mem_of_getLast? last))
  simp [ofChars, ends, marks, inside, isName_iff.2 named]

theorem StockPiece.ofChars_of_call {cs : List Char} {name : String} {given : List Expression}
    (read : call cs = .ok (name, given)) : ofChars cs = .ok (.finite name given) := by
  have ends := trimBy_of_call read
  have marks : between? '[' ']' cs = none := by
    rw [Option.eq_none_iff_forall_ne_some]
    intro inner found
    have same := between?_eq_some_iff.1 found
    obtain ⟨chars, named, -, shape⟩ := of_call_eq_ok read
    have opens : '[' ∈ chars := by
      cases chars with
      | nil => exact named.elim
      | cons c part =>
        rcases shape with ⟨rfl, -⟩ | ⟨_, rfl, -⟩ <;> simp [(List.cons.inj same).1]
    exact absurd (named.isNamePart_of_mem opens) (by decide)
  simp [ofChars, ends, marks, read, Except.map]

/-- A stock that has been read is read from its text again. -/
theorem StockPiece.ofChars_text {cs : List Char} {stock : StockPiece}
    (read : ofChars cs = .ok stock) :
    ofChars stock.text.toList = .ok stock := by
  obtain ⟨name, inner, -, -, named, rfl⟩ | ⟨name, given, called, rfl⟩ := of_ofChars_eq_ok read
  · simpa [StockPiece.text] using ofChars_infinite named
  · exact ofChars_of_call (call_text called)

/-- Trimming takes away blanks only. -/
theorem filter_trimBy (cs : List Char) :
    (trimBy isBlank cs).filter (!isBlank ·) = cs.filter (!isBlank ·) := by
  obtain ⟨front, back, front_blank, back_blank, same⟩ := exists_eq_trimBy isBlank cs
  have gone : ∀ l : List Char, (∀ c ∈ l, isBlank c = true) → l.filter (!isBlank ·) = [] := by
    intro l blank
    exact List.filter_eq_nil_iff.2 fun c listed => by simp [blank c listed]
  conv_rhs => rw [same]
  rw [List.filter_append, List.filter_append, gone front front_blank, gone back back_blank,
    List.nil_append, List.append_nil]

theorem StockPiece.filter_text {cs : List Char} {stock : StockPiece}
    (read : ofChars cs = .ok stock) :
    stock.text.toList.filter (· ≠ ' ') = cs.filter (!isBlank ·) := by
  obtain ⟨name, inner, shape, trimmed, named, rfl⟩ | ⟨name, given, called, rfl⟩ :=
    of_ofChars_eq_ok read
  · have text : (StockPiece.infinite (.ofList name)).text.toList = '[' :: (name ++ [']']) := by
      simp [StockPiece.text]
    have source : cs.filter (!isBlank ·) = '[' :: (name ++ [']']) := by
      rw [← filter_trimBy cs, shape, List.filter_cons_of_pos (by decide), List.filter_append,
        ← filter_trimBy inner, trimmed, named.filter_not_isBlank]
      rfl
    rw [source, text, List.filter_cons_of_pos (by decide), List.filter_append,
      named.filter_ne_space]
    rfl
  · rw [← filter_trimBy cs]
    exact filter_call_text called

/-! ## Flows -/

/-- A run of characters of a value that ends at a space or a comma is no name with a parenthesis
right behind it. -/
theorem append_ne_call {run rest : List Char} (plain : ∀ c ∈ run, Item.IsPlain c)
    (bounded : ∀ c ∈ rest.head?, c = ' ' ∨ c = ',') {name inner : List Char}
    (named : IsNameChars name) : run ++ rest ≠ name ++ '(' :: inner := by
  have not_here : ∀ c ∈ rest.head?, c ≠ '(' ∧ isNamePart c = false := by
    intro c first
    rcases bounded c first with rfl | rfl <;> decide
  intro same
  rcases List.append_eq_append_iff.1 same with ⟨more, name_eq, rest_eq⟩ | ⟨more, run_eq, paren_eq⟩
  · cases more with
    | nil => exact (not_here '(' (by simp [rest_eq])).1 rfl
    | cons c others =>
      have part : isNamePart c = true := named.isNamePart_of_mem (by simp [name_eq])
      rw [(not_here c (by simp [rest_eq])).2] at part
      cases part
  · cases more with
    | nil => exact (not_here '(' (by rw [← show _ = rest from paren_eq]; rfl)).1 rfl
    | cons c others =>
      obtain ⟨rfl, -⟩ := List.cons.inj paren_eq
      exact (plain '(' (by simp [run_eq])).2.1 rfl

/-- Neither does the text of an expression before a comma begin like that. -/
theorem text_append_ne_call {e : Expression} (written : e.IsWritten)
    {rest : List Char} (bounded : ∀ c ∈ rest.head?, c = ',') {front name inner : List Char}
    (blank : ∀ c ∈ front, isBlank c = true) (named : IsNameChars name) :
    e.text.toList ++ rest ≠ front ++ (name ++ '(' :: inner) := by
  intro same
  obtain ⟨c, more, shape, opens⟩ : ∃ c more, front ++ (name ++ '(' :: inner) = c :: more ∧
      (isBlank c = true ∨ isNamePart c = true) := by
    cases front with
    | nil =>
      cases name with
      | nil => exact named.elim
      | cons c part => exact ⟨c, _, rfl, .inr (isNamePart_of_isNameStart named.1)⟩
    | cons c others => exact ⟨c, _, rfl, .inl (blank c (List.mem_cons_self ..))⟩
  cases e with
  | nil =>
    obtain rfl := bounded c (by rw [show rest = c :: more from same.trans shape]; rfl)
    exact absurd opens (by decide)
  | operation op after =>
    rw [shape, Expression.toList_text_operation] at same
    obtain ⟨rfl, -⟩ := List.cons.inj same
    exact absurd opens (by cases op <;> decide)
  | group inside after =>
    rw [shape, Expression.toList_text_group] at same
    obtain ⟨rfl, -⟩ := List.cons.inj same
    exact absurd opens (by decide)
  | value v after =>
    have first := (Expression.isWritten_value_iff.1 written).1
    have ends : ∀ d ∈ (after.follow ++ rest).head?, d = ' ' ∨ d = ',' := by
      rw [Expression.follow_eq]
      split
      · exact fun d head => .inr (bounded d head)
      · exact fun d head => .inl (Option.some.inj head).symm
    rw [Expression.toList_text_value, List.append_assoc] at same
    cases front with
    | nil => exact append_ne_call first.plain ends named same
    | cons d others =>
      cases letters : v.text.toList with
      | nil => exact first.filled letters
      | cons d' tail =>
        rw [letters] at same
        obtain ⟨rfl, -⟩ := List.cons.inj same
        have solid : isBlank d' = false := (first.plain d' (by simp [letters])).1
        rw [blank d' (List.mem_cons_self ..)] at solid
        cases solid

theorem isLabeled_bareParameters {cs : List Char} {given : List Expression}
    (read : expressions cs = .ok given) :
    isLabeled (trimBy isBlank (bareParameters given).toList) = false := by
  rw [Bool.eq_false_iff]
  intro labeled
  obtain ⟨name, inner, named, shape⟩ := isLabeled_iff.1 labeled
  obtain ⟨front, back, blank, -, same⟩ := exists_eq_trimBy isBlank (bareParameters given).toList
  cases given with
  | nil => exact ne_nil_of_expressions read rfl
  | cons e others =>
    have written : e.IsWritten := by
      obtain ⟨_, -, first⟩ := exists_of_mem_mapM read (List.mem_cons_self ..)
      exact Expression.isWritten_of_ofText first
    have bounded : ∀ c ∈ ((others.map (·.text.toList)).flatMap ([','] ++ [' '] ++ ·)).head?,
        c = ',' := by
      cases others with
      | nil => simp
      | cons next more => simp
    have laid_out : name ++ '(' :: (inner ++ [')']) ++ back =
        name ++ '(' :: (inner ++ [')'] ++ back) := List.append_assoc ..
    rw [shape, laid_out, toList_bareParameters, List.map_cons, intercalate_cons] at same
    exact text_append_ne_call written bounded blank named same

/-- What a flow is read from, blanks at the ends apart. -/
theorem FlowPiece.of_ofChars_eq_ok {cs : List Char} {flow : FlowPiece}
    (read : ofChars cs = .ok flow) :
    (∃ name inner, IsNameChars name ∧ trimBy isBlank cs = name ++ '(' :: (inner ++ [')']) ∧
        expressions inner = .ok flow.parameters ∧ flow.label = .ofList name) ∨
      expressions cs = .ok flow.parameters ∧ flow.label = "" := by
  unfold ofChars at read
  simp only at read
  split at read
  · rename_i labeled
    obtain ⟨name, inner, named, shape⟩ := isLabeled_iff.1 labeled
    rw [shape, call_append named] at read
    obtain ⟨_, called, rfl⟩ := map_eq_ok_iff.1 read
    obtain ⟨given, inside, rfl⟩ := map_eq_ok_iff.1 called
    exact .inl ⟨name, inner, named, shape, inside, rfl⟩
  · obtain ⟨given, inside, rfl⟩ := map_eq_ok_iff.1 read
    rw [expressions_eq_ok_iff, scanParts_trimBy] at inside
    exact .inr ⟨expressions_eq_ok_iff.2 inside, rfl⟩

/-- A flow that has been read is read from its text again. -/
theorem FlowPiece.ofChars_text {cs : List Char} {flow : FlowPiece} (read : ofChars cs = .ok flow) :
    ofChars flow.text.toList = .ok flow := by
  obtain ⟨label, given⟩ := flow
  obtain ⟨name, inner, named, -, inside, rfl⟩ | ⟨inside, rfl⟩ := of_ofChars_eq_ok read
  · have labeled : String.ofList name ≠ "" := by
      simpa using named.ne_nil
    have text : (FlowPiece.mk (.ofList name) given).text.toList =
        name ++ '(' :: ((bareParameters given).toList ++ [')']) := by
      rw [FlowPiece.text, if_neg labeled, String.toList_append, String.toList_ofList,
        toList_wrappedParameters (ne_nil_of_expressions inside)]
    have called : call (name ++ '(' :: ((bareParameters given).toList ++ [')'])) =
        .ok (.ofList name, given) := by
      rw [call_append named, expressions_bareParameters inside]
      rfl
    have reads : isLabeled (name ++ '(' :: ((bareParameters given).toList ++ [')'])) = true :=
      isLabeled_iff.2 ⟨name, _, named, rfl⟩
    rw [text, ofChars, trimBy_of_call called]
    simp [reads, called, Except.map]
  · have text : (FlowPiece.mk "" given).text = bareParameters given := by
      simp [FlowPiece.text]
    have again : expressions (trimBy isBlank (bareParameters given).toList) = .ok given := by
      rw [expressions_eq_ok_iff, scanParts_trimBy]
      exact expressions_eq_ok_iff.1 (expressions_bareParameters inside)
    rw [text, ofChars]
    simp [isLabeled_bareParameters inside, again, Except.map]

theorem FlowPiece.filter_text {cs : List Char} {flow : FlowPiece} (read : ofChars cs = .ok flow) :
    flow.text.toList.filter (· ≠ ' ') = cs.filter (!isBlank ·) := by
  obtain ⟨label, given⟩ := flow
  obtain ⟨name, inner, named, shape, inside, rfl⟩ | ⟨inside, rfl⟩ := of_ofChars_eq_ok read
  · have labeled : String.ofList name ≠ "" := by
      simpa using named.ne_nil
    have called : call (trimBy isBlank cs) = .ok (.ofList name, given) := by
      rw [shape, call_append named, inside]
      rfl
    rw [FlowPiece.text, if_neg labeled, filter_call_text called, filter_trimBy]
  · rw [FlowPiece.text, if_pos rfl, String.empty_append, filter_bareParameters inside]

end StockFlow.Spec
