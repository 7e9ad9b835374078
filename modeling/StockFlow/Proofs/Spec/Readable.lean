import StockFlow.Proofs.Spec.PieceText
import StockFlow.Spec.Line

/-!
# Readable specs

A spec that has been scanned can be written and scanned again, and line by line the same pieces come
out; the same holds of expressions, stocks and flows (`readable_again`).

For lines the pieces need not be read one by one. Their text, blanks apart, is the code of the line
without the arrows in its flow (`codePieces_letters`), and those carry no meaning
(`codePieces_tidy`).
-/

namespace StockFlow.Spec

open StockFlow.Text

/-- The characters of a piece, its spaces apart. -/
def Piece.letters (piece : Piece) : List Char :=
  piece.text.toList.filter (· ≠ ' ')

/-! ## Code -/

theorem filter_eq_self_of_solid {cs : List Char} (solid : ∀ c ∈ cs, isBlank c = false) :
    cs.filter (!isBlank ·) = cs :=
  List.filter_eq_self.2 fun c listed => by simp [solid c listed]

/-- Of texts without other blanks the same is kept with or without regard to those. -/
theorem filter_not_isBlank_eq {cs : List Char} (spaced : ∀ c ∈ cs, c = ' ' ∨ isBlank c = false) :
    cs.filter (!isBlank ·) = cs.filter (· ≠ ' ') := by
  refine List.filter_congr fun c listed => ?_
  rcases spaced c listed with rfl | solid
  · decide
  · have other : c ≠ ' ' := by
      rintro rfl
      exact absurd solid (by decide)
    simp [solid, other]

theorem stockPieces_letters {marked : Bool} {parts : List (List Char)} {pieces : List Piece}
    (some : parts ≠ []) (solid : ∀ part ∈ parts, ∀ c ∈ part, isBlank c = false)
    (read : stockPieces marked parts = .ok pieces) :
    pieces.flatMap Piece.letters = ['>'].intercalate parts ++ if marked then ['@'] else [] := by
  have letters : ∀ {part stock}, (∀ c ∈ part, isBlank c = false) →
      StockPiece.ofChars part = .ok stock → (Piece.stock stock).letters = part := by
    intro part stock solid read
    rw [Piece.letters, Piece.text, StockPiece.filter_text read, filter_eq_self_of_solid solid]
  fun_induction stockPieces marked parts generalizing pieces with
  | case1 => exact absurd rfl some
  | case2 last marked =>
    obtain ⟨stock, stock_read, rfl⟩ := map_eq_ok_iff.1 read
    have same := letters (solid last (List.mem_singleton_self last)) stock_read
    rw [List.flatMap_cons, same, if_pos marked, List.intercalate_singleton]
    simp [Piece.letters, Piece.text]
  | case3 last unmarked empty =>
    obtain rfl := Except.ok.inj read
    obtain rfl := List.isEmpty_iff.1 empty
    simp [unmarked]
  | case4 last unmarked filled =>
    obtain ⟨stock, stock_read, rfl⟩ := map_eq_ok_iff.1 read
    have same := letters (solid last (List.mem_singleton_self last)) stock_read
    simp [same, unmarked]
  | case5 cs rest many ih =>
    obtain ⟨stock, first, read⟩ := bind_eq_ok_iff.1 read
    obtain ⟨others, later, read⟩ := bind_eq_ok_iff.1 read
    obtain rfl := Except.ok.inj read
    have same := letters (solid cs (List.mem_cons_self ..)) first
    have rest_some : rest ≠ [] := fun empty => many empty
    rw [List.flatMap_cons, List.flatMap_cons, same, List.intercalate_cons_of_ne_nil rest_some,
      ih rest_some (fun part listed => solid part (List.mem_cons_of_mem _ listed)) later]
    simp [Piece.letters, Piece.text]

theorem flowPieces_letters {cs : List Char} {pieces : List Piece}
    (solid : ∀ c ∈ cs, isBlank c = false) (read : flowPieces cs = .ok pieces) :
    pieces.flatMap Piece.letters = cs.filter (· ≠ '>') := by
  unfold flowPieces at read
  simp only at read
  split at read
  · rename_i empty
    obtain rfl := Except.ok.inj read
    rw [List.isEmpty_iff.1 empty]
    rfl
  · obtain ⟨flow, flow_read, rfl⟩ := map_eq_ok_iff.1 read
    have same : (Piece.flow flow).letters = cs.filter (· ≠ '>') := by
      rw [Piece.letters, Piece.text, FlowPiece.filter_text flow_read]
      exact filter_eq_self_of_solid fun c listed => solid c (List.mem_filter.1 listed).1
    rw [List.flatMap_cons, same]
    exact List.append_nil _

/-- Code without the arrows in its flow. -/
def tidy (cs : List Char) : List Char :=
  cs.takeWhile (· ≠ '@') ++ (cs.dropWhile (· ≠ '@')).filter (· ≠ '>')

theorem tidy_subset (cs : List Char) : tidy cs ⊆ cs := by
  intro c listed
  rcases List.mem_append.1 listed with before | behind
  · exact (List.takeWhile_prefix _).subset before
  · exact (List.dropWhile_suffix _).subset (List.mem_filter.1 behind).1

/-- Code goes up to its end or to a mark. -/
theorem dropWhile_mark (mark : Char) (cs : List Char) :
    cs.dropWhile (· ≠ mark) = [] ∨ ∃ rest, cs.dropWhile (· ≠ mark) = mark :: rest := by
  cases found : cs.dropWhile (· ≠ mark) with
  | nil => exact .inl rfl
  | cons c rest =>
    have first := List.head?_dropWhile_not (· ≠ mark) cs
    rw [found] at first
    obtain rfl : c = mark := by simpa using first
    exact .inr ⟨rest, rfl⟩

/-- The pieces of code are written as the code, arrows in the flow apart. -/
theorem codePieces_letters {cs : List Char} {pieces : List Piece}
    (solid : ∀ c ∈ cs, isBlank c = false) (read : codePieces cs = .ok pieces) :
    pieces.flatMap Piece.letters = tidy cs := by
  obtain ⟨stocks, stocks_read, read⟩ := bind_eq_ok_iff.1 read
  obtain ⟨flows, flows_read, read⟩ := bind_eq_ok_iff.1 read
  obtain rfl := Except.ok.inj read
  have parts_solid : ∀ part ∈ (cs.takeWhile (· ≠ '@')).splitOn '>',
      ∀ c ∈ part, isBlank c = false := by
    intro part listed c inside
    exact solid c ((List.takeWhile_prefix _).subset (subset_of_mem_splitOn listed inside))
  have rest_solid : ∀ c ∈ (cs.dropWhile (· ≠ '@')).tail, isBlank c = false := fun c listed =>
    solid c ((List.dropWhile_suffix _).subset (List.mem_of_mem_tail listed))
  rw [List.flatMap_append, stockPieces_letters (List.splitOn_ne_nil _ _) parts_solid stocks_read,
    flowPieces_letters rest_solid flows_read, List.intercalate_splitOn, tidy, List.append_assoc]
  rcases dropWhile_mark '@' cs with none | ⟨rest, found⟩
  · rw [none]
    rfl
  · rw [found]
    rfl

theorem flowPieces_filter (cs : List Char) : flowPieces (cs.filter (· ≠ '>')) = flowPieces cs := by
  simp only [flowPieces, List.filter_filter, Bool.and_self]

/-- Arrows in the flow carry no meaning. -/
theorem codePieces_tidy (cs : List Char) : codePieces (tidy cs) = codePieces cs := by
  have before : ∀ c ∈ cs.takeWhile (· ≠ '@'), decide (c ≠ '@') = true :=
    List.all_eq_true.1 List.all_takeWhile
  have kept : (tidy cs).takeWhile (· ≠ '@') = cs.takeWhile (· ≠ '@') ∧
      (tidy cs).dropWhile (· ≠ '@') = (cs.dropWhile (· ≠ '@')).filter (· ≠ '>') := by
    rw [tidy, List.takeWhile_append_of_pos before, List.dropWhile_append_of_pos before]
    rcases dropWhile_mark '@' cs with none | ⟨rest, found⟩
    · rw [none]
      simp
    · rw [found]
      simp
  rw [codePieces, codePieces, kept.1, kept.2]
  rcases dropWhile_mark '@' cs with none | ⟨rest, found⟩
  · rw [none]
    rfl
  · rw [found, List.filter_cons_of_pos (by decide)]
    simp only [List.isEmpty_cons, List.tail_cons, flowPieces_filter]

/-! ## Lines -/

/-- A line is written as its code, with some more spaces, and its comment. -/
theorem exists_laid_out (found : List Piece) (cs : List Char) :
    ∃ front back,
      [' '].intercalate ((found ++ commentPieces cs).map (·.text.toList)) = front ++ back ∧
      front.filter (· ≠ ' ') = found.flatMap Piece.letters ∧
      (∀ c ∈ back.head?, c = '#') ∧ commentPieces back = commentPieces cs ∧ back ⊆ cs := by
  rcases dropWhile_mark '#' cs with none | ⟨text, rest⟩
  · have no_comment : commentPieces cs = [] := by rw [commentPieces, none]
    refine ⟨_, [], (List.append_nil _).symm, ?_, by simp, no_comment.symm, List.nil_subset _⟩
    rw [no_comment, List.append_nil, filter_intercalate, List.map_map]
    exact (nil_intercalate _).trans List.flatMap_def.symm
  · have comment : commentPieces cs = [.comment (.ofList text)] := by rw [commentPieces, rest]
    have text_eq : (Piece.comment (.ofList text)).text.toList = '#' :: text := by simp [Piece.text]
    refine ⟨found.flatMap fun piece => piece.text.toList ++ [' '], '#' :: text, ?_, ?_, ?_, ?_, ?_⟩
    · rw [comment, List.map_append, List.map_singleton, intercalate_concat, text_eq,
        List.flatMap_map]
    · have dropped : ∀ piece : Piece,
          (piece.text.toList ++ [' ']).filter (· ≠ ' ') = piece.letters := by
        intro piece
        rw [List.filter_append]
        exact List.append_nil _
      rw [List.filter_flatMap]
      exact congrArg (List.flatMap · found) (funext dropped)
    · rintro c first
      exact (Option.some.inj first).symm
    · rw [comment]
      simp [commentPieces]
    · rw [← rest]
      exact (List.dropWhile_suffix _).subset

theorem code_append {front back : List Char} (clean : '#' ∉ front)
    (starts : ∀ c ∈ back.head?, c = '#') :
    code (front ++ back) = front.filter (!isBlank ·) ∧
      commentPieces (front ++ back) = commentPieces back := by
  have passes : ∀ c ∈ front, decide (c ≠ '#') = true := by
    intro c listed
    rw [decide_eq_true_eq]
    rintro rfl
    exact clean listed
  rw [code, commentPieces, commentPieces, List.takeWhile_append_of_pos passes,
    List.dropWhile_append_of_pos passes]
  cases back with
  | nil => exact ⟨by simp, rfl⟩
  | cons c text =>
    obtain rfl := starts c rfl
    exact ⟨by simp, rfl⟩

/-- The pieces of a line are those of the text that they are written as. -/
theorem linePieces_text {cs : List Char} {pieces : List Piece} (read : linePieces cs = .ok pieces)
    (single : '\n' ∉ cs) :
    linePieces (" ".intercalate (pieces.map Piece.text)).toList = .ok pieces ∧
      '\n' ∉ (" ".intercalate (pieces.map Piece.text)).toList := by
  obtain ⟨found, code_read, read⟩ := bind_eq_ok_iff.1 read
  obtain rfl := Except.ok.inj read
  have solid : ∀ c ∈ code cs, isBlank c = false ∧ c ≠ '#' := by
    intro c listed
    obtain ⟨before, unblank⟩ := List.mem_filter.1 listed
    exact ⟨by simpa using unblank, by simpa using List.all_eq_true.1 List.all_takeWhile c before⟩
  have written := codePieces_letters (fun c listed => (solid c listed).1) code_read
  obtain ⟨front, back, laid_out, front_letters, starts, comment, back_subset⟩ :=
    exists_laid_out found cs
  rw [written] at front_letters
  -- but for its spaces, what is written before the comment is code
  have front_solid : ∀ c ∈ front, c = ' ' ∨ (isBlank c = false ∧ c ≠ '#') := by
    intro c listed
    by_cases space : c = ' '
    · exact .inl space
    · have kept : c ∈ front.filter (· ≠ ' ') := List.mem_filter.2 ⟨listed, by simpa using space⟩
      rw [front_letters] at kept
      exact .inr (solid c (tidy_subset _ kept))
  have clean : '#' ∉ front := fun listed => (front_solid '#' listed).elim (by decide) (·.2 rfl)
  have front_code : front.filter (!isBlank ·) = tidy (code cs) := by
    rw [filter_not_isBlank_eq fun c listed => (front_solid c listed).imp_right And.left,
      front_letters]
  have text : (" ".intercalate ((found ++ commentPieces cs).map Piece.text)).toList =
      front ++ back := by
    rw [← laid_out, String.toList_intercalate, List.map_map]
    rfl
  rw [text]
  constructor
  · obtain ⟨same_code, same_comment⟩ := code_append clean starts
    rw [linePieces, same_code, same_comment, front_code, codePieces_tidy, code_read, comment]
    rfl
  · intro listed
    rcases List.mem_append.1 listed with early | late
    · exact (front_solid _ early).elim (by decide) fun solid => absurd solid.1 (by decide)
    · exact single (back_subset late)

/-! ## Specs -/

/-- Each line of a spec can be written, on one line, and be read again. -/
theorem readable_of_mem_scan {s : String} {lines : List Line} (read : scan s = .ok lines)
    {line : Line} (listed : line ∈ lines) :
    linePieces line.readable.toList = .ok line.pieces ∧ '\n' ∉ line.readable.toList ∧
      line.pieces ≠ [] := by
  obtain ⟨all, all_read, read⟩ := bind_eq_ok_iff.1 read
  obtain rfl := Except.ok.inj read
  obtain ⟨known, filled⟩ := List.mem_filter.1 listed
  obtain ⟨⟨text, number⟩, numbered, line_read⟩ := exists_of_mem_mapM all_read known
  obtain ⟨pieces, pieces_read, rfl⟩ := Line.ofText_eq_ok_iff.1 line_read
  obtain ⟨part, part_listed, rfl⟩ := List.mem_map.1 (List.fst_mem_of_mem_zipIdx numbered)
  have single : '\n' ∉ (String.ofList part).toList := by
    rw [String.toList_ofList]
    exact notMem_of_mem_splitOn part_listed
  obtain ⟨again, still_single⟩ := linePieces_text pieces_read single
  exact ⟨again, still_single, by simpa using filled⟩

/-- The lines of a readable text can be told apart. -/
theorem split_readable {lines : List Line} (some : lines ≠ [])
    (single : ∀ line ∈ lines, '\n' ∉ line.readable.toList) :
    split '\n' (readable lines) = lines.map Line.readable := by
  have joined : (readable lines).toList = ['\n'].intercalate (lines.map (·.readable.toList)) := by
    rw [readable, String.toList_intercalate, List.map_map]
    rfl
  have apart : ∀ part ∈ lines.map (·.readable.toList), '\n' ∉ part := by
    intro part listed
    obtain ⟨line, known, rfl⟩ := List.mem_map.1 listed
    exact single line known
  rw [split, joined, List.splitOn_intercalate '\n' apart (by simpa using some), List.map_map]
  simp [Function.comp_def]

/-- A spec is scanned again from its readable text, now one line for each line with pieces. -/
theorem scan_readable {s : String} {lines : List Line} (read : scan s = .ok lines) :
    scan (readable lines) = .ok
      ((lines.zipIdx 1).map fun numbered =>
        ⟨numbered.2, numbered.1.pieces, numbered.1.readable⟩) := by
  by_cases none : lines = []
  · subst none
    decide
  · have parts := split_readable none fun line known => (readable_of_mem_scan read known).2.1
    have again : ((split '\n' (readable lines)).zipIdx 1).mapM
        (fun numbered => Line.ofText numbered.2 numbered.1) = .ok
          ((lines.zipIdx 1).map fun numbered =>
            ⟨numbered.2, numbered.1.pieces, numbered.1.readable⟩) := by
      rw [parts, mapM_eq_ok_iff, List.zipIdx_map, List.forall₂_map_left_iff,
        List.forall₂_map_right_iff, List.forall₂_same]
      intro numbered listed
      have known : numbered.1 ∈ lines := List.fst_mem_of_mem_zipIdx listed
      exact Line.ofText_eq_ok_iff.2 ⟨_, (readable_of_mem_scan read known).1, rfl⟩
    refine bind_eq_ok_iff.2 ⟨_, again, congrArg Except.ok (List.filter_eq_self.2 ?_)⟩
    intro line listed
    obtain ⟨numbered, known, rfl⟩ := List.mem_map.1 listed
    simpa using (readable_of_mem_scan read (List.fst_mem_of_mem_zipIdx known)).2.2

/-- A spec that has been scanned gives the same pieces, line by line, when its readable text is
scanned; an expression, a stock or a flow that has been read is read from its own text again. -/
theorem readable_again :
    (∀ s lines, scan s = .ok lines → ∃ again, scan (readable lines) = .ok again ∧
      again.map Line.pieces = lines.map Line.pieces) ∧
    (∀ s e, Expression.ofText s = .ok e → Expression.ofText e.text = .ok e) ∧
    (∀ s stock, StockPiece.ofText s = .ok stock → StockPiece.ofText stock.text = .ok stock) ∧
    ∀ s flow, FlowPiece.ofText s = .ok flow → FlowPiece.ofText flow.text = .ok flow := by
  refine ⟨fun s lines read => ⟨_, scan_readable read, ?_⟩, fun s e => Expression.ofText_text,
    fun s stock => StockPiece.ofChars_text, fun s flow => FlowPiece.ofChars_text⟩
  conv_rhs => rw [← List.zipIdx_map_fst 1 lines, List.map_map]
  rw [List.map_map]
  rfl

/-- Blanks everywhere, an arrow in a flow, a line of its own for a comment, and an empty one. -/
def mixedText : String :=
  "a ( 1, b) > b @ (2 + c) * d >, 3 # first\n# only this\n\n[c] > d(5) @ Leak(0.5)"

/-- The lines of that text. -/
def mixed : List Line := [
  { number := 1
    pieces := [
      .stock (.finite "a" [.value (.whole "1") .nil, .value (.reference "b") .nil]), .direction,
      .stock (.finite "b" []), .delimiter,
      .flow ⟨"", [
        .group (.value (.whole "2") (.operation .plus (.value (.reference "c") .nil)))
          (.operation .times (.value (.reference "d") .nil)),
        .value (.whole "3") .nil]⟩,
      .comment " first"]
    text := "a ( 1, b) > b @ (2 + c) * d >, 3 # first" },
  { number := 2, pieces := [.comment " only this"], text := "# only this" },
  { number := 4
    pieces := [
      .stock (.infinite "c"), .direction, .stock (.finite "d" [.value (.whole "5") .nil]),
      .delimiter, .flow ⟨"Leak", [.value (.decimal "0.5") .nil]⟩]
    text := "[c] > d(5) @ Leak(0.5)" }]

theorem scan_mixed : scan mixedText = .ok mixed := by
  decide +kernel

/-- The flow reads like a label with a parameter, but for a space. -/
theorem readable_again_mixed :
    (∃ again, scan (readable mixed) = .ok again ∧ again.map Line.pieces = mixed.map Line.pieces) ∧
    (∃ e, Expression.ofText "a - (b*  2)" = .ok e ∧ Expression.ofText e.text = .ok e) ∧
    (∃ stock, StockPiece.ofText " s(1 2, ) " = .ok stock ∧
      StockPiece.ofText stock.text = .ok stock) ∧
    ∃ flow, FlowPiece.ofText "Rate (1), " = .ok flow ∧ FlowPiece.ofText flow.text = .ok flow := by
  have expression_read : Expression.ofText "a - (b*  2)" = .ok
      (.value (.reference "a") (.operation .minus
        (.group (.value (.reference "b") (.operation .times (.value (.whole "2") .nil)))
          .nil))) := by
    decide +kernel
  have stock_read : StockPiece.ofText " s(1 2, ) " = .ok
      (.finite "s" [.value (.whole "1") (.value (.whole "2") .nil), .nil]) := by
    decide +kernel
  have flow_read : FlowPiece.ofText "Rate (1), " = .ok
      ⟨"", [.value (.reference "Rate") (.group (.value (.whole "1") .nil) .nil), .nil]⟩ := by
    decide +kernel
  exact ⟨readable_again.1 _ _ scan_mixed,
    ⟨_, expression_read, readable_again.2.1 _ _ expression_read⟩,
    ⟨_, stock_read, readable_again.2.2.1 _ _ stock_read⟩,
    ⟨_, flow_read, readable_again.2.2.2 _ _ flow_read⟩⟩

end StockFlow.Spec
