import StockFlow.Proofs.Simulation.Checking
import StockFlow.Proofs.Spec.Meaning
import StockFlow.Proofs.Spec.Shape

/-!
# Whole numbers of a spec

A model that is read from a spec spells out no other whole numbers than the spec does, the zero that
stocks start with by default apart (`Model.mem_wholes_of_ofText`). So it can be seen from the spec
that a model has none that is out of range or too long (`Model.readable_of_ofText`).

What a spec of one stock with one whole number is read as is told for all digits
(`Model.ofText_spelledText`).
-/

namespace StockFlow

open StockFlow.Spec StockFlow.Text

namespace Spec

/-- The whole numbers of an expression, those of its groups included. -/
def Expression.wholes : Expression → List String
  | nil => []
  | value v rest => Formula.valueWholes v ++ rest.wholes
  | operation _ rest => rest.wholes
  | group inner rest => inner.wholes ++ rest.wholes

/-- The expressions in a piece. -/
def Piece.parameters : Piece → List Expression
  | stock written => written.parameters
  | flow written => written.parameters
  | direction | delimiter | comment _ => []

/-- The whole numbers in the pieces of lines, wherever they stand. -/
def wholes (found : List (List Piece)) : List String :=
  found.flatten.flatMap fun piece => piece.parameters.flatMap Expression.wholes

/-- Whatever a spec is scanned into, its whole numbers have a quantity and are spelled with no more
digits than are read. -/
def Readable (text : String) : Prop :=
  ∀ lines, scan text = .ok lines → ∀ digits ∈ wholes (lines.map Line.pieces),
    (Quantity.ofWhole? (wholeValue digits) : Option Float).isSome = true ∧
      wholeLength digits ≤ Fault.maxDigits

theorem readable_iff {text : String} :
    Readable text ↔ ∀ lines ∈ (scan text).toOption, ∀ digits ∈ wholes (lines.map Line.pieces),
      (Quantity.ofWhole? (wholeValue digits) : Option Float).isSome = true ∧
        wholeLength digits ≤ Fault.maxDigits := by
  unfold Readable
  cases scan text with
  | error fault => simp [Except.toOption]
  | ok lines => simp [Except.toOption]

instance (text : String) : Decidable (Readable text) :=
  decidable_of_iff _ readable_iff.symm

theorem mem_wholes {found : List (List Piece)} {own : List Piece} (line : own ∈ found)
    {piece : Piece} (listed : piece ∈ own) {e : Expression} (parameter : e ∈ piece.parameters)
    {digits : String} (spelled : digits ∈ e.wholes) : digits ∈ wholes found :=
  List.mem_flatMap.2 ⟨piece, List.mem_flatten.2 ⟨own, line, listed⟩,
    List.mem_flatMap.2 ⟨e, parameter, spelled⟩⟩

end Spec

/-! ## Formulas -/

theorem Formula.wholes_expressionThen (f : Formula) (rest : Expression) :
    (f.expressionThen rest).wholes = f.wholes ++ rest.wholes := by
  induction f generalizing rest with
  | value v => rfl
  | group f ih =>
    rw [expressionThen, Expression.wholes, ih, wholes, Expression.wholes, List.append_nil]
  | thenValue left op v ih =>
    rw [expressionThen, ih, wholes, Expression.wholes, Expression.wholes, List.append_assoc]
  | thenGroup left op f ih ih' =>
    rw [expressionThen, ih, wholes, Expression.wholes, Expression.wholes, ih', Expression.wholes,
      List.append_nil, List.append_assoc]

/-- A formula spells the whole numbers of the expression it is made from. -/
theorem Formula.wholes_of_ofExpression {e : Expression} {f : Formula}
    (read : ofExpression e = .ok f) : f.wholes = e.wholes := by
  rw [← ofExpression_eq_ok_iff.1 read, expression, wholes_expressionThen]
  exact (List.append_nil _).symm

/-! ## Stocks and flows -/

/-- What a field is left at is its default, or one of the expressions given for it. -/
theorem firstOther_mem (default : Formula) (given : List Expression) :
    firstOther default given = default.expression ∨ firstOther default given ∈ given := by
  unfold firstOther
  cases found : given.find? (· ≠ default.expression) with
  | none => exact .inl rfl
  | some e => exact .inr (List.mem_of_find?_eq_some found)

theorem mem_wholes_of_firstOther {default f : Formula} {given : List Expression}
    (read : Formula.ofExpression (firstOther default given) = .ok f) {digits : String}
    (spelled : digits ∈ f.wholes) : digits ∈ default.wholes ∨ ∃ e ∈ given, digits ∈ e.wholes := by
  rw [Formula.wholes_of_ofExpression read] at spelled
  rcases firstOther_mem default given with same | listed
  · rw [same, ← Formula.wholes_of_ofExpression (Formula.ofExpression_expression default)] at spelled
    exact .inl spelled
  · exact .inr ⟨_, listed, spelled⟩

/-- An expression that is given for a field is a parameter, unless it stands for infinity. -/
theorem Spec.StockPiece.mem_parameters {piece : StockPiece} {e : Expression}
    (given : piece.initial? = some e ∨ piece.maximum? = some e) {digits : String}
    (spelled : digits ∈ e.wholes) : e ∈ piece.parameters := by
  cases piece with
  | finite name parameters =>
    rcases given with first | second
    · exact List.mem_of_getElem? first
    · exact List.mem_of_getElem? second
  | infinite name =>
    rcases given with first | second
    · obtain rfl := Option.some.inj first
      cases spelled
    · cases second

theorem Stock.DeclaredBy.mem_wholes {stock : Stock} {given : List StockPiece}
    (declared : stock.DeclaredBy given) {formula : Formula}
    (field : formula ∈ [stock.initial, stock.maximum]) {digits : String}
    (spelled : digits ∈ formula.wholes) :
    digits = "0" ∨ ∃ piece ∈ given, ∃ e ∈ piece.parameters, digits ∈ e.wholes := by
  rcases List.mem_pair.1 field with rfl | rfl
  · rcases mem_wholes_of_firstOther declared.initial spelled with zero | ⟨e, listed, spelled⟩
    · exact .inl (List.mem_singleton.1 zero)
    · obtain ⟨piece, known, first⟩ := List.mem_filterMap.1 listed
      exact .inr ⟨piece, known, e, StockPiece.mem_parameters (.inl first) spelled, spelled⟩
  · rcases mem_wholes_of_firstOther declared.maximum spelled with none | ⟨e, listed, spelled⟩
    · cases none
    · obtain ⟨piece, known, second⟩ := List.mem_filterMap.1 listed
      exact .inr ⟨piece, known, e, StockPiece.mem_parameters (.inr second) spelled, spelled⟩

theorem Flow.DeclaredBy.mem_wholes {flow : Flow} {given : Connection}
    (declared : flow.DeclaredBy given) {digits : String}
    (spelled : digits ∈ flow.rule.formula.wholes) :
    ∃ e ∈ given.written.parameters, digits ∈ e.wholes := by
  obtain ⟨e, first, read⟩ := declared.formula
  rw [Formula.wholes_of_ofExpression read] at spelled
  exact ⟨e, List.mem_of_head? first, spelled⟩

/-! ## Lines -/

namespace Spec

theorem mem_of_mem_declaredIn {own : List Piece} {piece : StockPiece}
    (listed : piece ∈ declaredIn own) : .stock piece ∈ own := by
  obtain ⟨other, known, same⟩ := List.mem_filterMap.1 (List.mem_of_mem_take listed)
  cases other with
  | stock written =>
    obtain rfl := Option.some.inj same
    exact known
  | flow _ | direction | delimiter | comment _ => cases same

theorem mem_of_connectionIn? {own : List Piece} {given : Connection}
    (found : connectionIn? own = some given) : .flow given.written ∈ own := by
  have written : (own.filterMap Piece.flow?).head? = some given.written := by
    unfold connectionIn? connection? at found
    split at found
    · rename_i here
      rw [here, ← Option.some.inj found]
    · cases found
  obtain ⟨other, known, same⟩ := List.mem_filterMap.1 (List.mem_of_head? written)
  cases other with
  | flow own_flow =>
    obtain rfl := Option.some.inj same
    exact known
  | stock _ | direction | delimiter | comment _ => cases same

end Spec

/-- What lines denote spells out only whole numbers of the lines, and the zero of defaults. -/
theorem Spec.Denotes.mem_wholes {found : List (List Piece)} {m : Model Float}
    (denoted : Denotes found m) {formula : Formula} (listed : formula ∈ m.formulas)
    {digits : String} (spelled : digits ∈ formula.wholes) :
    digits = "0" ∨ digits ∈ wholes found := by
  rcases List.mem_append.1 listed with of_stock | of_flow
  · obtain ⟨stock, known, field⟩ := List.mem_flatMap.1 of_stock
    refine ((denoted.stocks stock known).mem_wholes field spelled).imp_right ?_
    rintro ⟨piece, declared, e, parameter, spelled⟩
    obtain ⟨own, line, inside⟩ := List.mem_flatMap.1 (List.mem_filter.1 declared).1
    exact Spec.mem_wholes line (mem_of_mem_declaredIn inside) (e := e) parameter spelled
  · obtain ⟨flow, known, rfl⟩ := List.mem_map.1 of_flow
    obtain ⟨given, connection, declared⟩ := exists_of_mem_forall₂ denoted.flows known
    obtain ⟨own, line, joins⟩ := List.mem_filterMap.1 connection
    obtain ⟨e, parameter, spelled⟩ := declared.mem_wholes spelled
    exact .inr (Spec.mem_wholes line (mem_of_connectionIn? joins) (e := e) parameter spelled)

/-- A model that is read is denoted by the lines of its spec. -/
theorem Model.denotes_of_ofText {name text : String} {m : Model Float} {lines : List Line}
    (read : Model.ofText name text = .ok m) (scanned : scan text = .ok lines) :
    Denotes (lines.map Line.pieces) m := by
  obtain ⟨known, b, known_scanned, each, built, rfl⟩ := exists_lines read
  obtain rfl := Except.ok.inj (known_scanned.symm.trans scanned)
  have pieces_read : ∀ own ∈ known.map Line.pieces, ∃ cs, linePieces cs = .ok own := by
    intro own listed
    obtain ⟨line, line_listed, rfl⟩ := List.mem_map.1 listed
    exact each line line_listed
  obtain ⟨stocks, flows⟩ := Builder.declaredBy_afterLines pieces_read (.start name) .nil built
  rw [List.nil_append] at stocks flows
  exact ⟨stocks.names, stocks.stocks, flows⟩

theorem Model.mem_wholes_of_ofText {name text : String} {m : Model Float} {lines : List Line}
    (read : Model.ofText name text = .ok m) (scanned : scan text = .ok lines) {formula : Formula}
    (listed : formula ∈ m.formulas) {digits : String} (spelled : digits ∈ formula.wholes) :
    digits = "0" ∨ digits ∈ wholes (lines.map Line.pieces) :=
  (denotes_of_ofText read scanned).mem_wholes listed spelled

theorem Model.readable_of_ofText {name text : String} {m : Model Float}
    (readable : Spec.Readable text) (read : Model.ofText name text = .ok m) : m.Readable := by
  obtain ⟨lines, -, scanned, -⟩ := exists_lines read
  intro formula listed digits spelled
  rcases mem_wholes_of_ofText read scanned listed spelled with rfl | written
  · decide +kernel
  · exact readable lines scanned digits written

/-! ## A spec of one number -/

namespace Spec

/-- A stock that starts with a whole number. -/
def spelledText (digits : String) : String :=
  "a(" ++ digits ++ ")"

theorem isNamePart_of_isDigit {c : Char} (digit : c.isDigit = true) : isNamePart c = true := by
  have same : isAsciiDigit c = c.isDigit := rfl
  rw [isNamePart, same, digit, Bool.or_true, Bool.true_or]

theorem Item.isPlain_of_isNamePart {c : Char} (part : isNamePart c = true) : IsPlain c := by
  have other : ∀ d, isNamePart d = false → c ≠ d := by
    rintro d differs rfl
    rw [part] at differs
    cases differs
  refine ⟨isBlank_of_isNamePart part, other _ (by decide), other _ (by decide), ?_⟩
  cases sign : Operator.ofChar? c with
  | none => rfl
  | some op =>
    rw [Operator.eq_sign_of_ofChar? sign] at part
    cases op <;> revert part <;> decide

theorem AreDigits.isPlain {cs : List Char} (digits : AreDigits cs) : ∀ c ∈ cs, Item.IsPlain c :=
  fun c listed => Item.isPlain_of_isNamePart (isNamePart_of_isDigit (digits.2 c listed))

theorem Value.ofText_digits {digits : List Char} (spelled : AreDigits digits) :
    Value.ofText (.ofList digits) = .whole (.ofList digits) := by
  have unsigned : '-' ∉ digits := fun listed => absurd (spelled.2 _ listed) (by decide)
  have finite : String.ofList digits ≠ infinityText := by
    intro same
    have listed : 'i' ∈ (String.ofList digits).toList := by
      rw [same]
      decide
    rw [String.toList_ofList] at listed
    exact absurd (spelled.2 _ listed) (by decide)
  rw [Item.ofText_of_plain spelled.isPlain, ofWord, if_neg finite, String.toList_ofList,
    if_pos ((isWhole_iff unsigned).2 spelled)]

theorem expressions_digits {digits : List Char} (spelled : AreDigits digits) :
    expressions digits = .ok [.value (.whole (.ofList digits)) .nil] := by
  have alone : digits.splitOn ',' = [digits] := List.splitOn_eq_singleton fun listed =>
    absurd (spelled.2 _ listed) (by decide)
  rw [expressions_eq_ok_iff, scanParts, alone, List.map_singleton, List.map_singleton,
    Item.scan_of_plain spelled.isPlain, Item.ofRun_of_ne_nil spelled.1, Value.ofText_digits spelled]
  rfl

/-- A line with nothing but a stock. -/
theorem linePieces_of_stock {cs : List Char} {stock : StockPiece}
    (plain : ∀ c ∈ cs, isBlank c = false ∧ c ≠ '#' ∧ c ≠ '@' ∧ c ≠ '>')
    (filled : cs ≠ []) (read : StockPiece.ofChars cs = .ok stock) :
    linePieces cs = .ok [.stock stock] := by
  have no_comment : '#' ∉ cs := fun listed => (plain _ listed).2.1 rfl
  have stock_part : IsStockPart cs := fun c listed => (plain c listed).2.2.symm
  obtain ⟨same, none⟩ : code (cs ++ []) = cs.filter (!isBlank ·) ∧
      commentPieces (cs ++ []) = commentPieces [] := code_append no_comment nofun
  rw [List.append_nil] at same none
  rw [linePieces, same, none, filter_eq_self_of_solid fun c listed => (plain c listed).1,
    stock_part.codePieces_eq, if_neg (by simpa using filled), read]
  rfl

theorem toList_spelledText (digits : String) :
    (spelledText digits).toList = ['a'] ++ '(' :: (digits.toList ++ [')']) := by
  simp [spelledText]

theorem plain_spelledText {digits : String} (spelled : AreDigits digits.toList) :
    ∀ c ∈ (spelledText digits).toList, isBlank c = false ∧ c ≠ '#' ∧ c ≠ '@' ∧ c ≠ '>' := by
  intro c listed
  have known : isNamePart c = true ∨ c = '(' ∨ c = ')' := by
    rw [toList_spelledText] at listed
    simp only [List.mem_append, List.mem_cons, List.not_mem_nil, or_false] at listed
    rcases listed with rfl | rfl | digit | rfl
    · decide
    · decide
    · exact .inl (isNamePart_of_isDigit (spelled.2 c digit))
    · decide
  rcases known with part | rfl | rfl
  · refine ⟨isBlank_of_isNamePart part, ?_, ?_, ?_⟩ <;>
    · rintro rfl
      revert part
      decide
  · decide
  · decide

theorem scan_spelledText {digits : String} (spelled : AreDigits digits.toList) :
    scan (spelledText digits) =
      .ok [⟨1, [.stock (.finite "a" [.value (.whole digits) .nil])], spelledText digits⟩] := by
  have plain := plain_spelledText spelled
  have named : IsNameChars ['a'] := ⟨by decide, nofun⟩
  have called : call (spelledText digits).toList =
      .ok ("a", [.value (.whole digits) .nil]) := by
    rw [toList_spelledText, call_append named, expressions_digits spelled, String.ofList_toList]
    rfl
  have single : split '\n' (spelledText digits) = [spelledText digits] := by
    have inside : '\n' ∉ (spelledText digits).toList := fun listed =>
      absurd (plain _ listed).1 (by decide)
    rw [split, List.splitOn_eq_singleton inside, List.map_singleton, String.ofList_toList]
  have read := linePieces_of_stock plain (by simp [toList_spelledText])
    (StockPiece.ofChars_of_call called)
  have line : Line.ofText 1 (spelledText digits) = .ok ⟨1, _, spelledText digits⟩ :=
    Line.ofText_eq_ok_iff.2 ⟨_, read, rfl⟩
  rw [scan, single, List.zipIdx_singleton]
  simp only [List.mapM_cons, line]
  rfl

end Spec

theorem Model.ofText_spelledText {digits : String} (spelled : AreDigits digits.toList) :
    Model.ofText "" (spelledText digits) = .ok (Model.spelled digits) := by
  rw [Model.ofText, scan_spelledText spelled]
  rfl

end StockFlow
