import Mathlib.Data.List.TakeDrop
import StockFlow.Proofs.Spec.ExpressionText
import StockFlow.Spec.Piece

/-!
# Names with parameters

Which texts are names (`isName_iff`), lists of expressions (`expressions_eq_ok_iff`) and names with
parameters (`of_call_eq_ok`). What has been read as one is read from its own text again
(`expressions_bareParameters`, `call_text`), and the two texts differ in blanks only
(`filter_bareParameters`, `filter_call_text`).
-/

namespace StockFlow.Spec

open StockFlow.Text

/-! ## Names and marks -/

/-- The characters of a name. -/
def IsNameChars : List Char → Prop
  | [] => False
  | c :: part => isNameStart c = true ∧ ∀ d ∈ part, isNamePart d = true

theorem isNamePart_of_isNameStart {c : Char} (opens : isNameStart c = true) :
    isNamePart c = true := by
  simp [isNamePart, opens]

theorem isBlank_of_isNamePart {c : Char} (part : isNamePart c = true) : isBlank c = false := by
  have bounds : 48 ≤ c.toNat ∧ c.toNat ≤ 122 := by
    simp only [isNamePart, isNameStart, isAsciiDigit, Bool.or_eq_true, Bool.and_eq_true,
      decide_eq_true_eq, beq_iff_eq, Char.le_def, UInt32.le_iff_toNat_le] at part
    rcases part with ((small | capital) | digit) | rfl
    · change 97 ≤ c.toNat ∧ c.toNat ≤ 122 at small
      omega
    · change 65 ≤ c.toNat ∧ c.toNat ≤ 90 at capital
      omega
    · change 48 ≤ c.toNat ∧ c.toNat ≤ 57 at digit
      omega
    · decide
  simp only [isBlank, Bool.or_eq_false_iff, Bool.and_eq_false_iff, decide_eq_false_iff_not,
    beq_eq_false_iff_ne]
  omega

namespace IsNameChars

variable {name : List Char}

theorem ne_nil (named : IsNameChars name) : name ≠ [] := by
  rintro rfl
  exact named

theorem isNamePart_of_mem (named : IsNameChars name) {c : Char} (listed : c ∈ name) :
    isNamePart c = true := by
  cases name with
  | nil => cases listed
  | cons first part =>
    rcases List.mem_cons.1 listed with rfl | later
    · exact isNamePart_of_isNameStart named.1
    · exact named.2 c later

theorem isBlank_of_mem (named : IsNameChars name) {c : Char} (listed : c ∈ name) :
    isBlank c = false :=
  isBlank_of_isNamePart (named.isNamePart_of_mem listed)

theorem filter_not_isBlank (named : IsNameChars name) : name.filter (!isBlank ·) = name :=
  List.filter_eq_self.2 fun c listed => by simp [named.isBlank_of_mem listed]

theorem filter_ne_space (named : IsNameChars name) : name.filter (· ≠ ' ') = name := by
  refine List.filter_eq_self.2 fun c listed => ?_
  rw [decide_eq_true_eq]
  rintro rfl
  exact absurd (named.isBlank_of_mem listed) (by decide)

/-- A name ends where a character comes that it may not hold. -/
theorem leadingName?_append (named : IsNameChars name) (rest : List Char)
    (bounded : ∀ c ∈ rest.head?, isNamePart c = false) :
    leadingName? (name ++ rest) = some (name, rest) := by
  cases name with
  | nil => exact named.elim
  | cons c part =>
    have kept : rest.takeWhile isNamePart = [] ∧ rest.dropWhile isNamePart = rest := by
      cases rest with
      | nil => exact ⟨rfl, rfl⟩
      | cons d more => simp [bounded d rfl]
    rw [List.cons_append, leadingName?, if_pos named.1, List.span_eq_takeWhile_dropWhile,
      List.takeWhile_append_of_pos named.2, List.dropWhile_append_of_pos named.2, kept.1, kept.2,
      List.append_nil]

end IsNameChars

theorem of_leadingName?_eq_some {cs name rest : List Char}
    (found : leadingName? cs = some (name, rest)) :
    IsNameChars name ∧ cs = name ++ rest := by
  cases cs with
  | nil => cases found
  | cons c more =>
    rw [leadingName?] at found
    split at found
    · rename_i opens
      rw [List.span_eq_takeWhile_dropWhile] at found
      obtain ⟨rfl, rfl⟩ := Prod.mk.inj (Option.some.inj found)
      have part : ∀ d ∈ more.takeWhile isNamePart, isNamePart d = true :=
        List.all_eq_true.1 List.all_takeWhile
      exact ⟨⟨opens, part⟩, by rw [List.cons_append, List.takeWhile_append_dropWhile]⟩
    · cases found

theorem isName_iff {cs : List Char} : isName cs = true ↔ IsNameChars cs := by
  unfold isName
  constructor
  · intro named
    split at named
    · rename_i name found
      obtain ⟨named, same⟩ := of_leadingName?_eq_some found
      rwa [same, List.append_nil]
    · cases named
  · intro named
    have found := named.leadingName?_append [] (by simp)
    rw [List.append_nil] at found
    rw [found]

theorem between?_eq_some_iff {opening closing : Char} {cs inner : List Char} :
    between? opening closing cs = some inner ↔ cs = opening :: (inner ++ [closing]) := by
  cases cs with
  | nil => simp [between?]
  | cons c rest =>
    rw [between?]
    constructor
    · intro found
      split at found
      · rename_i marks
        simp only [Bool.and_eq_true, decide_eq_true_eq] at marks
        obtain ⟨rfl, last⟩ := marks
        obtain rfl := Option.some.inj found
        rw [List.dropLast_append_getLast? closing last]
      · cases found
    · intro same
      obtain ⟨rfl, rfl⟩ := List.cons.inj same
      simp

/-! ## Parameters -/

/-- The items of each part of a text with commas. -/
def scanParts (cs : List Char) : List (List Item) :=
  (cs.splitOn ',').map Item.scan

theorem expressions_eq_ok_iff_forall₂ {cs : List Char} {given : List Expression} :
    expressions cs = .ok given ↔
      List.Forall₂ (fun part e => Expression.ofText (.ofList part) = .ok e) (cs.splitOn ',')
        given :=
  mapM_eq_ok_iff

theorem expressions_eq_ok_iff {cs : List Char} {given : List Expression} :
    expressions cs = .ok given ↔ given.map Expression.items = scanParts cs := by
  rw [expressions_eq_ok_iff_forall₂, scanParts, eq_comm, ← List.forall₂_eq_eq_eq,
    List.forall₂_map_left_iff, List.forall₂_map_right_iff]
  simp only [Expression.ofText_eq_ok_iff, String.toList_ofList, @eq_comm _ (Item.scan _)]

theorem ne_nil_of_expressions {cs : List Char} {given : List Expression}
    (read : expressions cs = .ok given) : given ≠ [] := by
  rintro rfl
  have none := expressions_eq_ok_iff.1 read
  exact List.splitOn_ne_nil _ _ (List.map_eq_nil_iff.1 none.symm)

/-- Blanks in front of a text are part of its first part, where they make no item. -/
theorem scanParts_append_left {front : List Char} (blank : ∀ c ∈ front, isBlank c = true)
    (cs : List Char) : scanParts (front ++ cs) = scanParts cs := by
  induction front with
  | nil => rfl
  | cons c rest ih =>
    have here : isBlank c = true := blank c (List.mem_cons_self ..)
    have apart : ¬ (c == ',') = true := by
      rw [beq_iff_eq]
      rintro rfl
      exact absurd here (by decide)
    rw [← ih fun d h => blank d (List.mem_cons_of_mem _ h), List.cons_append, scanParts,
      List.splitOn_cons_eq_if_modifyHead, if_neg apart, scanParts]
    cases (rest ++ cs).splitOn ',' with
    | nil => rfl
    | cons first parts => simp [Item.scan_mark (Item.ofMark?_blank here)]

/-- Blanks behind a text are part of its last part, where they make no item. -/
theorem scanParts_append_right {back : List Char} (blank : ∀ c ∈ back, isBlank c = true)
    (cs : List Char) : scanParts (cs ++ back) = scanParts cs := by
  have apart : ',' ∉ back := fun listed => absurd (blank ',' listed) (by decide)
  have bounded : ∀ c ∈ back.head?, ¬ Item.IsPlain c := fun c first plain => by
    have := blank c (List.mem_of_head? first)
    rw [plain.1] at this
    cases this
  by_cases comma : ',' ∈ cs
  · obtain ⟨first, rest, rfl⟩ := List.append_of_mem comma
    have shorter := scanParts_append_right blank rest
    rw [scanParts, scanParts] at shorter
    rw [List.append_assoc, List.cons_append, scanParts, scanParts, List.splitOn_append_cons_self,
      List.splitOn_append_cons_self, List.map_append, List.map_append, shorter]
  · rw [scanParts, scanParts, List.splitOn_eq_singleton (by simp [comma, apart]),
      List.splitOn_eq_singleton comma]
    simp [Item.scan_append bounded, Item.scan_of_blank blank]
termination_by cs.length

/-- Blanks at the ends of a text do not count. -/
theorem scanParts_trimBy (cs : List Char) : scanParts (trimBy isBlank cs) = scanParts cs := by
  obtain ⟨front, back, front_blank, back_blank, same⟩ := exists_eq_trimBy isBlank cs
  conv_rhs => rw [same]
  rw [scanParts_append_left front_blank, scanParts_append_right back_blank]

theorem toList_bareParameters (given : List Expression) :
    (bareParameters given).toList = ([','] ++ [' ']).intercalate (given.map (·.text.toList)) := by
  rw [bareParameters, String.toList_intercalate, List.map_map]
  rfl

theorem filter_text_of_expressions {cs : List Char} {given : List Expression}
    (read : expressions cs = .ok given) :
    given.map (fun e => e.text.toList.filter (· ≠ ' ')) =
      (cs.splitOn ',').map (List.filter (!isBlank ·)) := by
  have parts := expressions_eq_ok_iff_forall₂.1 read
  rw [eq_comm, ← List.forall₂_eq_eq_eq, List.forall₂_map_left_iff, List.forall₂_map_right_iff]
  refine parts.imp fun part e part_read => ?_
  rw [Expression.filter_text_of_ofText part_read, String.toList_ofList]

theorem filter_bareParameters {cs : List Char} {given : List Expression}
    (read : expressions cs = .ok given) :
    (bareParameters given).toList.filter (· ≠ ' ') = cs.filter (!isBlank ·) := by
  have joined : cs = [','].intercalate (cs.splitOn ',') := (List.intercalate_splitOn ',').symm
  rw [toList_bareParameters, filter_intercalate, List.map_map]
  conv_rhs => rw [joined, filter_intercalate]
  rw [← filter_text_of_expressions read]
  rfl

/-- The text of an expression between commas holds no comma. -/
theorem comma_notMem_text {cs : List Char} {given : List Expression}
    (read : expressions cs = .ok given) {e : Expression} (listed : e ∈ given) :
    ',' ∉ e.text.toList := by
  intro comma
  have kept : ',' ∈ e.text.toList.filter (· ≠ ' ') := List.mem_filter.2 ⟨comma, by decide⟩
  have written : e.text.toList.filter (· ≠ ' ') ∈
      (cs.splitOn ',').map (List.filter (!isBlank ·)) := by
    rw [← filter_text_of_expressions read]
    exact List.mem_map.2 ⟨e, listed, rfl⟩
  obtain ⟨part, part_listed, same⟩ := List.mem_map.1 written
  rw [← same] at kept
  exact notMem_of_mem_splitOn part_listed (List.mem_filter.1 kept).1

/-- Expressions that have been read are read from their text again. -/
theorem expressions_bareParameters {cs : List Char} {given : List Expression}
    (read : expressions cs = .ok given) :
    expressions (bareParameters given).toList = .ok given := by
  have scanned : ∀ e ∈ given, Item.scan e.text.toList = e.items := by
    intro e listed
    obtain ⟨_, -, part_read⟩ := exists_of_mem_mapM read listed
    exact (Expression.ofText_eq_ok_iff.1 (Expression.ofText_text part_read)).symm
  have clean : ∀ e ∈ given, ',' ∉ e.text.toList := fun e listed => comma_notMem_text read listed
  cases given with
  | nil => exact absurd rfl (ne_nil_of_expressions read)
  | cons first rest =>
    have split : (bareParameters (first :: rest)).toList.splitOn ',' =
        first.text.toList :: (rest.map (·.text.toList)).map ([' '] ++ ·) := by
      rw [toList_bareParameters, List.map_cons, append_intercalate_cons]
      refine List.splitOn_intercalate ',' ?_ (List.cons_ne_nil _ _)
      intro part listed
      simp only [List.mem_cons, List.map_map, List.mem_map, Function.comp_apply] at listed
      rcases listed with rfl | ⟨e, later, rfl⟩
      · exact clean first (List.mem_cons_self ..)
      · simpa using clean e (List.mem_cons_of_mem _ later)
    rw [expressions_eq_ok_iff, scanParts, split]
    simp only [List.map_cons, List.map_map, scanned first (List.mem_cons_self ..), List.cons.injEq,
      true_and]
    refine List.map_congr_left fun e later => ?_
    rw [Function.comp_apply, Function.comp_apply, List.singleton_append, Item.scan_space,
      scanned e (List.mem_cons_of_mem _ later)]

/-! ## Names with parameters -/

theorem getLast?_append_marks (front inner : List Char) (opening closing : Char) :
    (front ++ opening :: (inner ++ [closing])).getLast? = some closing := by
  rw [← List.cons_append, ← List.append_assoc, List.getLast?_concat]

theorem call_append {name : List Char} (named : IsNameChars name) (inner : List Char) :
    call (name ++ '(' :: (inner ++ [')'])) = (expressions inner).map (.ofList name, ·) := by
  have found := named.leadingName?_append ('(' :: (inner ++ [')'])) (by simp; decide)
  have marks : between? '(' ')' ('(' :: (inner ++ [')'])) = some inner := between?_eq_some_iff.2 rfl
  simp [call, found, parameters, marks]

/-- A call is a name, or a name with what its parameters are read from in parentheses. -/
theorem of_call_eq_ok {cs : List Char} {name : String} {given : List Expression}
    (read : call cs = .ok (name, given)) :
    ∃ chars, IsNameChars chars ∧ name = .ofList chars ∧
      ((cs = chars ∧ given = []) ∨
        ∃ inner, cs = chars ++ '(' :: (inner ++ [')']) ∧ expressions inner = .ok given) := by
  unfold call at read
  split at read
  · cases read
  · rename_i chars rest found
    obtain ⟨named, rfl⟩ := of_leadingName?_eq_some found
    split at read
    · rename_i complete
      refine ⟨chars, named, ?_⟩
      cases rest with
      | nil =>
        obtain ⟨rfl, rfl⟩ := Prod.mk.inj (Except.ok.inj read)
        exact ⟨rfl, .inl ⟨List.append_nil _, rfl⟩⟩
      | cons c more =>
        obtain ⟨inner, marks⟩ : ∃ inner, between? '(' ')' (c :: more) = some inner := by
          simpa [Option.isSome_iff_exists] using complete
        have inside : parameters (c :: more) = expressions inner := by simp [parameters, marks]
        rw [inside] at read
        obtain ⟨_, result, same⟩ := map_eq_ok_iff.1 read
        obtain ⟨rfl, rfl⟩ := Prod.mk.inj same
        exact ⟨rfl, .inr ⟨inner, by rw [between?_eq_some_iff.1 marks], result⟩⟩
    · cases read

theorem isLabeled_iff {cs : List Char} :
    isLabeled cs = true ↔
      ∃ name inner, IsNameChars name ∧ cs = name ++ '(' :: (inner ++ [')']) := by
  unfold isLabeled
  constructor
  · intro labeled
    split at labeled
    · rename_i name rest found
      obtain ⟨named, rfl⟩ := of_leadingName?_eq_some found
      obtain ⟨inner, marks⟩ := Option.isSome_iff_exists.1 labeled
      exact ⟨name, inner, named, by rw [between?_eq_some_iff.1 marks]⟩
    · cases labeled
  · rintro ⟨name, inner, named, rfl⟩
    have found := named.leadingName?_append ('(' :: (inner ++ [')'])) (by simp; decide)
    have marks : between? '(' ')' ('(' :: (inner ++ [')'])) = some inner :=
      between?_eq_some_iff.2 rfl
    simp [found, marks]

/-- A call has no blanks at its ends. -/
theorem trimBy_of_call {cs : List Char} {called : String × List Expression}
    (read : call cs = .ok called) : trimBy isBlank cs = cs := by
  obtain ⟨chars, named, -, shape⟩ := of_call_eq_ok read
  have first : ∀ c ∈ cs.head?, isBlank c = false := by
    intro c head
    have listed : c ∈ chars.head? := by
      cases chars with
      | nil => exact named.elim
      | cons d part =>
        rcases shape with ⟨rfl, -⟩ | ⟨inner, rfl, -⟩ <;> exact head
    exact named.isBlank_of_mem (List.mem_of_head? listed)
  have last : ∀ c ∈ cs.getLast?, isBlank c = false := by
    intro c tail
    rcases shape with ⟨rfl, -⟩ | ⟨inner, rfl, -⟩
    · exact named.isBlank_of_mem (List.mem_of_getLast? tail)
    · rw [getLast?_append_marks] at tail
      obtain rfl := Option.some.inj tail
      decide
  exact trimBy_eq_self first last

theorem toList_wrappedParameters {given : List Expression} (some : given ≠ []) :
    (wrappedParameters given).toList = '(' :: ((bareParameters given).toList ++ [')']) := by
  simp [wrappedParameters, some]

/-- A call that has been read is read from its text again. -/
theorem call_text {cs : List Char} {name : String} {given : List Expression}
    (read : call cs = .ok (name, given)) :
    call (name ++ wrappedParameters given).toList = .ok (name, given) := by
  obtain ⟨chars, named, rfl, ⟨rfl, rfl⟩ | ⟨inner, rfl, inside⟩⟩ := of_call_eq_ok read
  · simpa [wrappedParameters] using read
  · rw [String.toList_append, String.toList_ofList,
      toList_wrappedParameters (ne_nil_of_expressions inside), call_append named,
      expressions_bareParameters inside]
    rfl

theorem filter_call_text {cs : List Char} {name : String} {given : List Expression}
    (read : call cs = .ok (name, given)) :
    (name ++ wrappedParameters given).toList.filter (· ≠ ' ') = cs.filter (!isBlank ·) := by
  obtain ⟨chars, named, rfl, shape⟩ := of_call_eq_ok read
  rcases shape with ⟨rfl, rfl⟩ | ⟨inner, rfl, inside⟩
  · rw [String.toList_append, String.toList_ofList, List.filter_append, named.filter_ne_space,
      named.filter_not_isBlank]
    exact List.append_nil _
  · rw [String.toList_append, String.toList_ofList,
      toList_wrappedParameters (ne_nil_of_expressions inside), List.filter_append,
      List.filter_append, named.filter_ne_space, named.filter_not_isBlank,
      List.filter_cons_of_pos (by decide), List.filter_cons_of_pos (by decide), List.filter_append,
      List.filter_append, filter_bareParameters inside]
    rfl

end StockFlow.Spec
