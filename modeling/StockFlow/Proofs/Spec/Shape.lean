import StockFlow.Proofs.Builder.Declaring
import StockFlow.Proofs.Spec.Readable

/-!
# The shape of a scanned spec

Building a model goes through the pieces of a line without looking whether they stand in an order
that makes sense, takes the first parameter of a flow and looks stocks up by their names. The lines
of a scanned spec are all such that it can (`wellFormed_of_mem_scan`): the stocks come first, then
perhaps a flow, then perhaps a comment; names are identifiers; and a word in a formula, however deep
inside parentheses, is what it looks like.

What names and numbers look like is told here by the ASCII classes of their characters and not by
the tests of the scanner.
-/

namespace StockFlow.Spec

open StockFlow.Text

/-! ## Words -/

/-- One or more ASCII digits. -/
def AreDigits (cs : List Char) : Prop :=
  cs ≠ [] ∧ ∀ c ∈ cs, c.isDigit = true

/-- Digits, a point and digits. -/
def AreDecimal (cs : List Char) : Prop :=
  ∃ whole fraction, cs = whole ++ '.' :: fraction ∧ AreDigits whole ∧ AreDigits fraction

/-- A letter, and then letters, digits and underscores. -/
def IsIdentifier (s : String) : Prop :=
  ∃ first part, s.toList = first :: part ∧ first.isAlpha = true ∧
    ∀ c ∈ part, c.isAlphanum = true ∨ c = '_'

/-- A character that no word goes over: white space, a parenthesis, a sign or a comma. -/
def PartsWords (c : Char) : Prop :=
  isBlank c = true ∨ c ∈ ['(', ')', '+', '-', '*', '/', ',']

/-- A value is of the kind that its spelling says. -/
def Value.WellFormed : Value → Prop
  | whole digits => AreDigits digits.toList
  | decimal digits => AreDecimal digits.toList
  | infinity => True
  | reference name =>
    name ≠ "" ∧ name ≠ "inf" ∧ ¬ AreDigits name.toList ∧ ¬ AreDecimal name.toList ∧
      ∀ c ∈ name.toList, ¬ PartsWords c

/-- The members of a sequence, those of its groups included, are of the kinds that their spellings
say. -/
def Expression.WellFormed : Expression → Prop
  | nil => True
  | value v rest => v.WellFormed ∧ rest.WellFormed
  | operation op rest => op.text ∈ ["+", "-", "*", "/"] ∧ rest.WellFormed
  | group inner rest => inner.WellFormed ∧ rest.WellFormed

theorem isDigits_iff {cs : List Char} : isDigits cs = true ↔ AreDigits cs := by
  simp only [isDigits, AreDigits, Bool.and_eq_true, Bool.not_eq_true', List.isEmpty_eq_false_iff,
    List.all_eq_true]
  exact Iff.rfl

theorem isDecimal_iff {cs : List Char} : isDecimal cs = true ↔ AreDecimal cs := by
  unfold isDecimal AreDecimal
  rw [List.span_eq_takeWhile_dropWhile]
  constructor
  · intro decimal
    split at decimal
    · rename_i whole fraction parts
      obtain ⟨before, behind⟩ := Prod.mk.inj parts
      rw [Bool.and_eq_true] at decimal
      have digits : AreDigits whole := by
        refine ⟨by simpa using decimal.1, ?_⟩
        rw [← before]
        exact List.all_eq_true.1 List.all_takeWhile
      refine ⟨whole, fraction, ?_, digits, isDigits_iff.1 decimal.2⟩
      rw [← before, ← behind, List.takeWhile_append_dropWhile]
    · cases decimal
  · rintro ⟨whole, fraction, rfl, digits, more⟩
    have before : ∀ c ∈ whole, isAsciiDigit c = true := digits.2
    have point : isAsciiDigit '.' = false := by decide
    simp [List.takeWhile_append_of_pos before, List.dropWhile_append_of_pos before, point,
      digits.1, isDigits_iff.2 more]

/-- What a text without a sign spells is a whole number just if it is made of digits. -/
theorem isWhole_iff {cs : List Char} (unsigned : '-' ∉ cs) : isWhole cs = true ↔ AreDigits cs := by
  rw [← isDigits_iff]
  unfold isWhole
  split
  · exact absurd (List.mem_cons_self ..) unsigned
  · exact Iff.rfl

theorem Item.not_partsWords {c : Char} (plain : IsPlain c) (apart : c ≠ ',') : ¬ PartsWords c := by
  rintro (blank | listed)
  · rw [plain.1] at blank
    cases blank
  · have others := plain.2.2.2
    simp only [List.mem_cons, List.not_mem_nil, or_false] at listed
    rcases listed with rfl | rfl | rfl | rfl | rfl | rfl | rfl
    · exact plain.2.1 rfl
    · exact plain.2.2.1 rfl
    · cases others
    · cases others
    · cases others
    · cases others
    · exact apart rfl

/-- A value read from a run of characters without commas is what it looks like. -/
theorem Item.IsWritten.wellFormed {v : Value} (written : IsWritten v)
    (single : ',' ∉ v.text.toList) : v.WellFormed := by
  have clean : ∀ c ∈ v.text.toList, ¬ PartsWords c := fun c listed =>
    not_partsWords (written.plain c listed) fun same => single (same ▸ listed)
  have unsigned : '-' ∉ v.text.toList := fun listed => clean '-' listed (.inr (by simp))
  have read := written.read
  have whole : strip v.text = v.text := by
    conv_rhs => rw [← read, Value.ofText, Value.text_ofWord]
  rw [Value.ofText, whole, Value.ofWord] at read
  split at read
  · rw [← read]
    trivial
  · rename_i finite
    split at read
    · rename_i digits
      rw [← read]
      exact (isWhole_iff unsigned).1 digits
    · rename_i not_whole
      split at read
      · rename_i digits
        rw [← read]
        exact isDecimal_iff.1 digits
      · rename_i not_decimal
        rw [← read]
        refine ⟨?_, finite, ?_, ?_, clean⟩
        · exact fun empty => written.filled (by rw [empty]; rfl)
        · exact fun digits => not_whole ((isWhole_iff unsigned).2 digits)
        · exact fun digits => not_decimal (isDecimal_iff.2 digits)

/-- A sequence is well-formed if its values are, for operators always are. -/
theorem Expression.wellFormed_of_values {e : Expression}
    (each : ∀ v, .value v ∈ e.items → v.WellFormed) : e.WellFormed := by
  induction e with
  | nil => trivial
  | value v rest ih =>
    refine ⟨each v (List.mem_cons_self ..), ih fun w listed => each w ?_⟩
    exact List.mem_cons_of_mem _ listed
  | operation op rest ih =>
    refine ⟨?_, ih fun w listed => each w (List.mem_cons_of_mem _ listed)⟩
    cases op <;> decide
  | group inner rest inner_ih ih =>
    refine ⟨inner_ih fun w listed => each w ?_, ih fun w listed => each w ?_⟩
    · simp [items, listed]
    · simp [items, listed]

theorem wellFormed_of_expressions {cs : List Char} {given : List Expression}
    (read : expressions cs = .ok given) {e : Expression} (listed : e ∈ given) : e.WellFormed := by
  obtain ⟨part, part_listed, part_read⟩ := exists_of_mem_mapM read listed
  refine Expression.wellFormed_of_values fun v inside => ?_
  refine (Expression.isWritten_of_ofText part_read v inside).wellFormed fun comma => ?_
  have kept : ',' ∈ e.items.flatMap Item.spelled := List.mem_flatMap.2 ⟨.value v, inside, comma⟩
  rw [Expression.ofText_eq_ok_iff.1 part_read, Item.flatMap_spelled_scan, String.toList_ofList]
    at kept
  exact notMem_of_mem_splitOn part_listed (List.mem_filter.1 kept).1

/-! ## Pieces -/

/-- The parameters of a stock; an infinite one has none. -/
def StockPiece.parameters : StockPiece → List Expression
  | finite _ given => given
  | infinite _ => []

/-- A stock has a name that stocks can have, and formulas for parameters. -/
structure StockPiece.WellFormed (stock : StockPiece) : Prop where
  name : IsIdentifier stock.name
  parameters : ∀ e ∈ stock.parameters, e.WellFormed

/-- A flow has a rate, and a label that is a name if there is one. -/
structure FlowPiece.WellFormed (flow : FlowPiece) : Prop where
  label : flow.label = "" ∨ IsIdentifier flow.label
  filled : flow.parameters ≠ []
  parameters : ∀ e ∈ flow.parameters, e.WellFormed

/-- A piece that declares something does it with names and words as they should be. -/
def Piece.WellFormed : Piece → Prop
  | stock written => written.WellFormed
  | flow written => written.WellFormed
  | direction | delimiter | comment _ => True

theorem IsNameChars.isIdentifier {name : List Char} (named : IsNameChars name) :
    IsIdentifier (.ofList name) := by
  cases name with
  | nil => exact named.elim
  | cons first part =>
    have letter : ∀ c, isNameStart c = c.isAlpha := fun c => by
      simp [isNameStart, Char.isAlpha, Char.isUpper, Char.isLower, Char.le_def, Bool.or_comm]
    refine ⟨first, part, String.toList_ofList, letter first ▸ named.1, fun c listed => ?_⟩
    have follows := named.2 c listed
    simp only [isNamePart, letter, Bool.or_eq_true, beq_iff_eq] at follows
    rw [Char.isAlphanum, Bool.or_eq_true]
    exact follows

theorem StockPiece.wellFormed_of_ofChars {cs : List Char} {stock : StockPiece}
    (read : ofChars cs = .ok stock) : stock.WellFormed := by
  rcases of_ofChars_eq_ok read with ⟨name, inner, -, -, named, rfl⟩ | ⟨name, given, called, rfl⟩
  · exact ⟨named.isIdentifier, List.forall_mem_nil _⟩
  · obtain ⟨chars, named, rfl, shape⟩ := of_call_eq_ok called
    refine ⟨named.isIdentifier, ?_⟩
    rcases shape with ⟨-, rfl⟩ | ⟨inner, -, inside⟩
    · exact List.forall_mem_nil _
    · exact fun e listed => wellFormed_of_expressions inside listed

theorem FlowPiece.wellFormed_of_ofChars {cs : List Char} {flow : FlowPiece}
    (read : ofChars cs = .ok flow) : flow.WellFormed := by
  rcases of_ofChars_eq_ok read with ⟨name, inner, named, -, inside, labeled⟩ | ⟨inside, bare⟩
  · exact ⟨.inr (labeled ▸ named.isIdentifier), ne_nil_of_expressions inside,
      fun e listed => wellFormed_of_expressions inside listed⟩
  · exact ⟨.inl bare, ne_nil_of_expressions inside,
      fun e listed => wellFormed_of_expressions inside listed⟩

/-! ## Lines -/

/-- The pieces of the code of a line: stocks with an arrow behind each, and then nothing, a stock, a
stock with the mark of a flow, or a stock with the mark and the flow. -/
inductive IsCode : List Piece → Prop where
  | nothing : IsCode []
  | last (stock) : IsCode [.stock stock]
  | marked (stock) : IsCode [.stock stock, .delimiter]
  | connected (stock flow) : IsCode [.stock stock, .delimiter, .flow flow]
  | arrow (stock) {rest} : IsCode rest → IsCode (.stock stock :: .direction :: rest)

/-- A line with pieces in their order, each as it should be. -/
structure Line.WellFormed (line : Line) : Prop where
  filled : line.pieces ≠ []
  order : ∃ code comments, line.pieces = code ++ comments ∧ IsCode code ∧
    (comments = [] ∨ ∃ text, comments = [.comment text])
  pieces : ∀ piece ∈ line.pieces, piece.WellFormed

/-- Stocks that are read before the mark of a flow take a flow behind them; without the mark, they
are the code of a line as they are. -/
theorem isCode_of_stockPieces {marked : Bool} {parts : List (List Char)} {stocks flows : List Piece}
    (read : stockPieces marked parts = .ok stocks) (some : parts ≠ [])
    (flow : flows = [] ∨ marked = true ∧ ∃ written, flows = [.flow written]) :
    IsCode (stocks ++ flows) := by
  induction parts generalizing stocks with
  | nil => exact absurd rfl some
  | cons cs rest ih =>
    cases rest with
    | nil =>
      rw [stockPieces] at read
      split at read
      · obtain ⟨stock, -, rfl⟩ := map_eq_ok_iff.1 read
        rcases flow with rfl | ⟨-, written, rfl⟩
        · exact .marked stock
        · exact .connected stock written
      · rename_i unmarked
        obtain rfl := flow.resolve_right fun given => unmarked given.1
        rw [List.append_nil]
        split at read
        · obtain rfl := Except.ok.inj read
          exact .nothing
        · obtain ⟨stock, -, rfl⟩ := map_eq_ok_iff.1 read
          exact .last stock
    | cons next more =>
      obtain ⟨stock, -, read⟩ := bind_eq_ok_iff.1 read
      obtain ⟨others, others_read, read⟩ := bind_eq_ok_iff.1 read
      obtain rfl := Except.ok.inj read
      exact .arrow stock (ih others_read (List.cons_ne_nil _ _))

theorem wellFormed_of_mem_stockPieces {marked : Bool} {parts : List (List Char)}
    {stocks : List Piece} (read : stockPieces marked parts = .ok stocks) :
    ∀ piece ∈ stocks, piece.WellFormed := by
  induction parts generalizing stocks with
  | nil =>
    obtain rfl := Except.ok.inj read
    exact List.forall_mem_nil _
  | cons cs rest ih =>
    cases rest with
    | nil =>
      rw [stockPieces] at read
      split at read
      · obtain ⟨stock, stock_read, rfl⟩ := map_eq_ok_iff.1 read
        have first : stock.WellFormed := StockPiece.wellFormed_of_ofChars stock_read
        simpa [Piece.WellFormed] using first
      · split at read
        · obtain rfl := Except.ok.inj read
          exact List.forall_mem_nil _
        · obtain ⟨stock, stock_read, rfl⟩ := map_eq_ok_iff.1 read
          have first : stock.WellFormed := StockPiece.wellFormed_of_ofChars stock_read
          simpa [Piece.WellFormed] using first
    | cons next more =>
      obtain ⟨stock, stock_read, read⟩ := bind_eq_ok_iff.1 read
      obtain ⟨others, others_read, read⟩ := bind_eq_ok_iff.1 read
      obtain rfl := Except.ok.inj read
      have first : stock.WellFormed := StockPiece.wellFormed_of_ofChars stock_read
      have later := ih others_read
      simpa [Piece.WellFormed, first] using later

theorem wellFormed_of_mem_flowPieces {cs : List Char} {flows : List Piece}
    (read : flowPieces cs = .ok flows) : ∀ piece ∈ flows, piece.WellFormed := by
  unfold flowPieces at read
  simp only at read
  split at read
  · obtain rfl := Except.ok.inj read
    exact List.forall_mem_nil _
  · obtain ⟨flow, flow_read, rfl⟩ := map_eq_ok_iff.1 read
    have only : flow.WellFormed := FlowPiece.wellFormed_of_ofChars flow_read
    simpa [Piece.WellFormed] using only

/-- A flow is read only behind its mark. -/
theorem eq_nil_or_of_flowPieces {rest : List Char} {flows : List Piece}
    (read : flowPieces rest.tail = .ok flows) :
    flows = [] ∨ (!rest.isEmpty) = true ∧ ∃ written, flows = [.flow written] := by
  unfold flowPieces at read
  simp only at read
  split at read
  · exact .inl (Except.ok.inj read).symm
  · rename_i filled
    obtain ⟨flow, -, rfl⟩ := map_eq_ok_iff.1 read
    refine .inr ⟨?_, flow, rfl⟩
    cases rest with
    | nil => exact absurd rfl filled
    | cons c more => rfl

theorem commentPieces_eq (cs : List Char) :
    commentPieces cs = [] ∨ ∃ text, commentPieces cs = [.comment text] := by
  unfold commentPieces
  split
  · exact .inl rfl
  · exact .inr ⟨_, rfl⟩

theorem Line.wellFormed_of_linePieces {line : Line} (filled : line.pieces ≠ []) {cs : List Char}
    (read : linePieces cs = .ok line.pieces) : line.WellFormed := by
  obtain ⟨code, code_read, read⟩ := bind_eq_ok_iff.1 read
  obtain ⟨stocks, stocks_read, code_read⟩ := bind_eq_ok_iff.1 code_read
  obtain ⟨flows, flows_read, code_read⟩ := bind_eq_ok_iff.1 code_read
  obtain rfl := Except.ok.inj code_read
  have pieces : stocks ++ flows ++ commentPieces cs = line.pieces := Except.ok.inj read
  refine ⟨filled, ⟨stocks ++ flows, commentPieces cs, pieces.symm, ?_, commentPieces_eq cs⟩, ?_⟩
  · exact isCode_of_stockPieces stocks_read (List.splitOn_ne_nil _ _)
      (eq_nil_or_of_flowPieces flows_read)
  · intro piece listed
    rw [← pieces, List.mem_append, List.mem_append] at listed
    rcases listed with (stock | flow) | comment
    · exact wellFormed_of_mem_stockPieces stocks_read piece stock
    · exact wellFormed_of_mem_flowPieces flows_read piece flow
    · rcases commentPieces_eq cs with none | ⟨text, one⟩
      · rw [none] at comment
        cases comment
      · rw [one] at comment
        rw [List.mem_singleton.1 comment]
        trivial

/-- Whatever the text, if it is a spec then its lines are well-formed. -/
theorem wellFormed_of_mem_scan {s : String} {lines : List Line} (read : scan s = .ok lines) :
    ∀ line ∈ lines, line.WellFormed := by
  intro line listed
  obtain ⟨all, all_read, read⟩ := bind_eq_ok_iff.1 read
  obtain rfl := Except.ok.inj read
  obtain ⟨known, filled⟩ := List.mem_filter.1 listed
  obtain ⟨⟨text, number⟩, -, line_read⟩ := exists_of_mem_mapM all_read known
  obtain ⟨pieces, pieces_read, rfl⟩ := Line.ofText_eq_ok_iff.1 line_read
  exact Line.wellFormed_of_linePieces (by simpa using filled) pieces_read

/-- Marks where they have no meaning or nothing behind them, and groups inside groups. -/
def strayText : String :=
  "a((b - (2)) / 4.50,) > c @ Leak(@x > + 1)#>@\n[d] >\ne @ # @\n # >"

/-- The lines of that text. -/
def stray : List Line := [
  { number := 1
    pieces := [
      .stock (.finite "a" [
        .group
          (.value (.reference "b") (.operation .minus (.group (.value (.whole "2") .nil) .nil)))
          (.operation .divide (.value (.decimal "4.50") .nil)),
        .nil]),
      .direction, .stock (.finite "c" []), .delimiter,
      .flow ⟨"Leak", [.value (.reference "@x") (.operation .plus (.value (.whole "1") .nil))]⟩,
      .comment ">@"]
    text := "a((b - (2)) / 4.50,) > c @ Leak(@x > + 1)#>@" },
  { number := 2, pieces := [.stock (.infinite "d"), .direction], text := "[d] >" },
  { number := 3
    pieces := [.stock (.finite "e" []), .delimiter, .comment " @"]
    text := "e @ # @" },
  { number := 4, pieces := [.comment " >"], text := " # >" }]

theorem scan_stray : scan strayText = .ok stray := by
  decide +kernel

theorem wellFormed_of_mem_scan_stray :
    scan strayText = .ok stray ∧ ∀ line ∈ stray, line.WellFormed :=
  ⟨scan_stray, wellFormed_of_mem_scan scan_stray⟩

end StockFlow.Spec
