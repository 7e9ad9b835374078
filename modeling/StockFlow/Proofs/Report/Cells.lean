import Mathlib
import StockFlow.Proofs.Command.Agreement
import StockFlow.Proofs.Number.RoundTrip
import StockFlow.Proofs.Spec.Meaning
import StockFlow.Proofs.Spec.Shape

/-!
# Tables read back

Nothing in a table is quoted. It can be cut into its lines and cells all the same, since neither the
names of a spec's stocks nor the texts of doubles have a line feed, a tab or a comma in them
(`IsToken`), and a padded cell has no blanks but those at its end. So the table of a run determines
what the run shows (`Model.table_shows`): every cell is read as a number that equals the recorded
one.
-/

namespace StockFlow

open StockFlow.Text StockFlow.Number StockFlow.Spec

namespace Report

/-! ## Characters of cells -/

/-- A character of names and numbers. -/
def IsToken (c : Char) : Prop :=
  isNamePart c = true ∨ c = '.' ∨ c = '+' ∨ c = '-'

theorem IsToken.not_isBlank {c : Char} (token : IsToken c) : isBlank c = false := by
  rcases token with part | rfl | rfl | rfl
  · exact isBlank_of_isNamePart part
  all_goals decide

theorem IsToken.ne_comma {c : Char} (token : IsToken c) : c ≠ ',' := by
  rintro rfl
  rcases token with part | same | same | same
  · revert part
    decide
  all_goals exact absurd same (by decide)

theorem isToken_of_isPlain {c : Char} (plain : IsPlain c) : IsToken c := by
  rcases plain with digit | rfl | rfl | rfl | rfl
  · exact .inl (isNamePart_of_isDigit digit)
  · exact .inr (.inl rfl)
  · exact .inl (by decide)
  · exact .inr (.inr (.inl rfl))
  · exact .inr (.inr (.inr rfl))

/-- A text of such characters. -/
def IsTokens (s : String) : Prop :=
  ∀ c ∈ s.toList, IsToken c

theorem isTokens_ofList {cs : List Char} (tokens : ∀ c ∈ cs, IsToken c) :
    IsTokens (String.ofList cs) := by
  rwa [IsTokens, String.toList_ofList]

theorem isTokens_names : IsTokens "nan" ∧ IsTokens "inf" ∧ IsTokens "-inf" := by
  have letters : ∀ cs : List Char, cs.all isNamePart = true → ∀ c ∈ cs, IsToken c :=
    fun cs all c listed => .inl (List.all_eq_true.1 all c listed)
  exact ⟨isTokens_ofList (letters ['n', 'a', 'n'] (by decide)),
    isTokens_ofList (letters ['i', 'n', 'f'] (by decide)),
    isTokens_ofList (List.forall_mem_cons.2 ⟨.inr (.inr (.inr rfl)),
      letters ['i', 'n', 'f'] (by decide)⟩)⟩

theorem isTokens_signed {size : List Char} (plain : ∀ c ∈ size, IsPlain c) (negative : Bool) :
    IsTokens (String.ofList (if negative then '-' :: size else size)) := by
  have tokens : ∀ c ∈ size, IsToken c := fun c listed => isToken_of_isPlain (plain c listed)
  refine isTokens_ofList ?_
  split
  · exact List.forall_mem_cons.2 ⟨.inr (.inr (.inr rfl)), tokens⟩
  · exact tokens

theorem isTokens_text (x : Float) : IsTokens (Number.text x) := by
  unfold Number.text
  cases meaning x with
  | nan => exact isTokens_names.1
  | infinite negative =>
    cases negative with
    | true => exact isTokens_names.2.2
    | false => exact isTokens_names.2.1
  | finite negative m q =>
    refine isTokens_signed ?_ negative
    split
    · simp [IsPlain]
    · exact (isNumeral_chars _).plain

theorem isTokens_whole (n : ℤ) : IsTokens (toString n) := by
  rw [toString_whole]
  exact isTokens_signed (isNumeral_digitChars _).plain _

theorem isTokens_plainText (x : Float) : IsTokens (plainText x) := by
  unfold plainText
  split
  · exact isTokens_whole _
  · exact isTokens_text x

theorem isNameStart_eq (c : Char) : isNameStart c = c.isAlpha := by
  simp [isNameStart, Char.isAlpha, Char.isUpper, Char.isLower, Char.le_def, Bool.or_comm]

theorem isTokens_of_isIdentifier {s : String} (identifier : IsIdentifier s) : IsTokens s := by
  have part : ∀ c : Char, c.isAlphanum = true → isNamePart c = true := by
    intro c letter
    rw [Char.isAlphanum, Bool.or_eq_true] at letter
    rcases letter with letter | digit
    · simp [isNamePart, isNameStart_eq, letter]
    · exact isNamePart_of_isDigit digit
  obtain ⟨first, rest, written, letter, each⟩ := identifier
  intro c listed
  rw [written] at listed
  rcases List.mem_cons.1 listed with rfl | later
  · exact .inl (part c (by rw [Char.isAlphanum, letter, Bool.true_or]))
  · rcases each c later with letter | rfl
    · exact .inl (part c letter)
    · exact .inl (by decide)

/-! ## Padding -/

/-- A text without the blanks at its end. -/
def dropEnd (s : String) : String :=
  String.ofList (s.toList.rdropWhile isBlank)

theorem dropEnd_eq_self {s : String} (tokens : IsTokens s) : dropEnd s = s := by
  have last : s.toList.rdropWhile isBlank = s.toList := by
    refine List.rdropWhile_eq_self_iff.2 fun filled => ?_
    rw [(tokens _ (List.getLast_mem filled)).not_isBlank]
    exact Bool.false_ne_true
  rw [dropEnd, last, String.ofList_toList]

theorem dropEnd_padRight {s : String} (tokens : IsTokens s) (width : ℕ) :
    dropEnd (padRight width s) = s := by
  have dropped : ∀ k, (s.toList ++ List.replicate k ' ').rdropWhile isBlank =
      s.toList.rdropWhile isBlank := by
    intro k
    induction k with
    | zero => rw [List.replicate_zero, List.append_nil]
    | succ k ih =>
      rw [List.replicate_succ', ← List.append_assoc, List.rdropWhile_concat_pos _ _ _ (by decide),
        ih]
  rw [dropEnd, padRight, String.toList_append, String.toList_ofList, dropped, ← dropEnd,
    dropEnd_eq_self tokens]

/-! ## Lines and cells -/

/-- A character that parts the cells of a line. -/
def IsSeparator (sep : Char) : Prop :=
  sep = '\t' ∨ sep = ','

theorem IsToken.ne_separator {c sep : Char} (token : IsToken c) (separates : IsSeparator sep) :
    c ≠ sep := by
  rcases separates with rfl | rfl
  · rintro rfl
    exact absurd token.not_isBlank (by decide)
  · exact token.ne_comma

/-- What joins texts free of the separator can be cut into them again. -/
theorem split_intercalate {sep : Char} {parts : List String} (filled : parts ≠ [])
    (clean : ∀ part ∈ parts, sep ∉ part.toList) :
    split sep ((String.singleton sep).intercalate parts) = parts := by
  have chars : ∀ cs ∈ parts.map String.toList, sep ∉ cs := by
    intro cs listed
    obtain ⟨part, known, rfl⟩ := List.mem_map.1 listed
    exact clean part known
  rw [split, String.toList_intercalate, String.toList_singleton,
    List.splitOn_intercalate sep chars (by simpa using filled), List.map_map]
  exact List.map_id'' (fun part => String.ofList_toList) parts

theorem intercalate_eq_append_join (sep first : String) (rest : List String) :
    sep.intercalate (first :: rest) = first ++ String.join (rest.map (sep ++ ·)) := by
  refine String.toList_injective ?_
  rw [String.toList_intercalate, List.map_cons, intercalate_cons, String.toList_append,
    String.toList_join]
  simp [List.flatMap_map]

/-- A text that may stand in a cell: a name or a number, perhaps filled up with spaces. -/
def IsCell (s : String) : Prop :=
  ∀ c ∈ s.toList, IsToken c ∨ c = ' '

theorem isCell_of_isTokens {s : String} (tokens : IsTokens s) : IsCell s :=
  fun c listed => .inl (tokens c listed)

theorem isCell_padRight {s : String} (tokens : IsTokens s) (width : ℕ) :
    IsCell (padRight width s) := by
  intro c listed
  rw [padRight, String.toList_append, String.toList_ofList] at listed
  rcases List.mem_append.1 listed with inside | filled
  · exact .inl (tokens c inside)
  · exact .inr (List.eq_of_mem_replicate filled)

theorem IsCell.notMem_separator {s : String} {sep : Char} (cell : IsCell s)
    (separates : IsSeparator sep) : sep ∉ s.toList := by
  intro listed
  rcases cell sep listed with token | rfl
  · exact token.ne_separator separates rfl
  · exact absurd separates (by unfold IsSeparator; decide)

/-- No line of cells is broken. -/
theorem newline_notMem {sep : Char} {cells : List String} (separates : IsSeparator sep)
    (each : ∀ cell ∈ cells, IsCell cell) :
    '\n' ∉ ((String.singleton sep).intercalate cells).toList := by
  rw [String.toList_intercalate, String.toList_singleton]
  intro listed
  rcases mem_of_mem_intercalate listed with here | ⟨part, joined, inside⟩
  · rw [← List.mem_singleton.1 here] at separates
    exact absurd separates (by unfold IsSeparator; decide)
  · obtain ⟨cell, known, rfl⟩ := List.mem_map.1 joined
    rcases each cell known _ inside with token | space
    · exact absurd token.not_isBlank (by decide)
    · exact absurd space (by decide)

/-! ## Tables -/

/-- A cell that is read as a number equal to `x`, or as no number where `x` is none. -/
def CellShows (x : Float) (cell : String) : Prop :=
  ∃ y, ofText? (dropEnd cell) = some y ∧ ((y == x) = true ∨ y.isNaN = true ∧ x.isNaN = true)

/-- A line that begins with the number of a round and has a cell behind it for each column. -/
def LineShows (sep : Char) (columns : List String) (round : ℕ) (snapshot : Keyed Float)
    (line : String) : Prop :=
  ∃ cells, split sep line = toString round :: cells ∧
    List.Forall₂ (fun name cell => ∃ x, snapshot.find? name = some x ∧ CellShows x cell)
      columns cells

/-- A text that is, line by line and cell by cell, the table of snapshots. -/
def TableShows (sep : Char) (columns : List String) (snapshots : List (Keyed Float))
    (text : String) : Prop :=
  ∃ header lines, split '\n' text = header :: lines ∧ split sep header = "" :: columns ∧
    List.Forall₂ (fun numbered line => LineShows sep columns numbered.2 numbered.1 line)
      snapshots.zipIdx lines

/-- The cell of a value. -/
def cellOf (pad : Bool) (name : String) (x : Float) : String :=
  if pad then padRight name.length (plainText x) else plainText x

theorem isCell_cellOf (pad : Bool) (name : String) (x : Float) : IsCell (cellOf pad name x) := by
  unfold cellOf
  split
  · exact isCell_padRight (isTokens_plainText x) _
  · exact isCell_of_isTokens (isTokens_plainText x)

theorem cellShows_cellOf (pad : Bool) (name : String) (x : Float) :
    CellShows x (cellOf pad name x) := by
  have whole : dropEnd (cellOf pad name x) = plainText x := by
    unfold cellOf
    split
    · exact dropEnd_padRight (isTokens_plainText x) _
    · exact dropEnd_eq_self (isTokens_plainText x)
  rw [CellShows, whole]
  exact ofText?_plainText x

section

variable {sep : Char} {pad : Bool} {columns : List String}

/-- The row of a snapshot is its round and its cells, joined. -/
theorem exists_cells_of_row {snapshot : Keyed Float} {round : ℕ} {line : String}
    (made : row plainText { separator := .singleton sep, pad } columns round snapshot = .ok line) :
    ∃ cells, line = (String.singleton sep).intercalate (toString round :: cells) ∧
      List.Forall₂ (fun name cell => ∃ x, snapshot.find? name = some x ∧ cell = cellOf pad name x)
        columns cells := by
  obtain ⟨joined, cells_made, same⟩ := bind_eq_ok_iff.1 made
  obtain rfl := Except.ok.inj same
  have written := mapM_eq_ok_iff.1 cells_made
  obtain ⟨cells, rfl, each⟩ : ∃ cells, joined = cells.map (String.singleton sep ++ ·) ∧
      List.Forall₂ (fun name cell => ∃ x, snapshot.find? name = some x ∧ cell = cellOf pad name x)
        columns cells := by
    clear made cells_made same
    induction written with
    | nil => exact ⟨[], rfl, .nil⟩
    | @cons name joined columns more first _ ih =>
      obtain ⟨cells, rfl, each⟩ := ih
      cases found : snapshot.find? name with
      | none =>
        rw [found] at first
        cases first
      | some x =>
        rw [found] at first
        exact ⟨cellOf pad name x :: cells, by rw [← Except.ok.inj first]; rfl,
          .cons ⟨x, found, rfl⟩ each⟩
  exact ⟨cells, (intercalate_eq_append_join ..).symm, each⟩

theorem isTokens_toString (n : ℕ) : IsTokens (toString n) :=
  isTokens_whole n

/-- A row shows its snapshot, on one line. -/
theorem lineShows_of_row {snapshot : Keyed Float} {round : ℕ} {line : String}
    (separates : IsSeparator sep)
    (made : row plainText { separator := .singleton sep, pad } columns round snapshot = .ok line) :
    LineShows sep columns round snapshot line ∧ '\n' ∉ line.toList := by
  obtain ⟨cells, rfl, each⟩ := exists_cells_of_row made
  have clean : ∀ cell ∈ toString round :: cells, IsCell cell := by
    refine List.forall_mem_cons.2 ⟨isCell_of_isTokens (isTokens_toString round), ?_⟩
    intro cell listed
    obtain ⟨name, -, x, -, rfl⟩ := exists_of_mem_forall₂ each listed
    exact isCell_cellOf pad name x
  refine ⟨⟨cells, ?_, each.imp ?_⟩, newline_notMem separates clean⟩
  · exact split_intercalate (List.cons_ne_nil _ _) fun cell listed =>
      (clean cell listed).notMem_separator separates
  · rintro name _ ⟨x, found, rfl⟩
    exact ⟨x, found, cellShows_cellOf pad name x⟩

/-- The table of snapshots shows them, where the columns have names without separators. -/
theorem tableShows_of_table {snapshots : List (Keyed Float)} {text : String}
    (separates : IsSeparator sep) (filled : columns ≠ []) (names : ∀ name ∈ columns, IsTokens name)
    (made : table plainText { separator := .singleton sep, pad } snapshots columns = .ok text) :
    TableShows sep columns snapshots text := by
  obtain ⟨lines, lines_made, same⟩ := bind_eq_ok_iff.1 made
  obtain rfl := Except.ok.inj same
  have each := mapM_eq_ok_iff.1 lines_made
  have head : header { separator := .singleton sep, pad } columns =
      (String.singleton sep).intercalate ("" :: columns) := by
    obtain ⟨first, rest, rfl⟩ := List.exists_cons_of_ne_nil filled
    rw [header, intercalate_eq_append_join, intercalate_eq_append_join]
    simp [String.join_cons, String.append_assoc]
  have clean : ∀ name ∈ "" :: columns, IsCell name :=
    List.forall_mem_cons.2 ⟨fun c listed => by simp at listed,
      fun name listed => isCell_of_isTokens (names name listed)⟩
  refine ⟨_, lines, split_intercalate (List.cons_ne_nil _ _) ?_, ?_, ?_⟩
  · rw [head]
    refine List.forall_mem_cons.2 ⟨newline_notMem separates clean, fun line listed => ?_⟩
    obtain ⟨numbered, -, made⟩ := exists_of_mem_forall₂ each listed
    exact (lineShows_of_row separates made).2
  · rw [head]
    exact split_intercalate (List.cons_ne_nil _ _) fun name listed =>
      (clean name listed).notMem_separator separates
  · exact each.imp fun numbered line made => (lineShows_of_row separates made).1

end

end Report

/-! ## Runs of a spec -/

namespace Model

/-- The names of a spec's stocks, in the order in which its lines first declare them. -/
theorem exists_declared {name text : String} {m : Model Float}
    (read : Model.ofText name text = .ok m) :
    ∃ lines, scan text = .ok lines ∧
      m.stockNames = (((lines.map Line.pieces).flatMap declaredIn).map StockPiece.name).eraseDups ∧
      ∀ name ∈ m.stockNames, IsIdentifier name := by
  obtain ⟨lines, b, scanned, each, built, rfl⟩ := exists_lines read
  have pieces_read : ∀ own ∈ lines.map Line.pieces, ∃ cs, linePieces cs = .ok own := by
    intro own listed
    obtain ⟨line, known, rfl⟩ := List.mem_map.1 listed
    exact each line known
  obtain ⟨stocks, -⟩ := Builder.declaredBy_afterLines pieces_read (.start name) .nil built
  rw [List.nil_append] at stocks
  refine ⟨lines, scanned, stocks.names, fun name listed => ?_⟩
  have declared : name ∈ ((lines.map Line.pieces).flatMap declaredIn).map StockPiece.name := by
    have listed : name ∈ b.stockNames := listed
    rw [stocks.names] at listed
    exact List.mem_eraseDups.1 listed
  obtain ⟨piece, given, rfl⟩ := List.mem_map.1 declared
  obtain ⟨own, of_line, given⟩ := List.mem_flatMap.1 given
  obtain ⟨line, known, rfl⟩ := List.mem_map.1 of_line
  have inside := mem_of_mem_declaredIn given
  obtain ⟨cs, pieces⟩ := each line known
  exact ((Line.wellFormed_of_linePieces (List.ne_nil_of_mem inside) pieces).pieces _ inside).name

/-- Every snapshot of a run has all stocks. -/
theorem stockNames_subset_of_run {α : Type} [Quantity α] {m : Model α} {rounds : ℕ}
    {overrides : Overrides α} {snapshots : List (Snapshot α)}
    (ran : m.run rounds overrides = .ok snapshots) :
    ∀ values ∈ snapshots, m.stockNames ⊆ values.names := by
  obtain ⟨first, started, begins, -⟩ := run_eq_ok_iff.1 ran
  obtain ⟨order, valid, filled, -⟩ := State.exists_order_of_start started
  intro values listed name known
  rw [names_of_run ran begins values listed]
  exact (State.mem_names_of_fill filled).2 ((State.mem_sequence_iff valid).2 known)

/-- The table of a run of a spec's model determines what the run shows: cut at line feeds and at the
separator, it has a header with the names of the stocks shown, in the order in which the spec
declares them, and a line for each snapshot, with the number of the round and cells that are read
as the quantities of these stocks. -/
theorem table_shows {name text : String} {m : Model Float} (read : Model.ofText name text = .ok m)
    (shown : m.columns ≠ []) {rounds : ℕ} {overrides : Overrides Float}
    {snapshots : List (Snapshot Float)} (ran : m.run rounds overrides = .ok snapshots) {sep : Char}
    (separates : Report.IsSeparator sep) (pad : Bool) :
    ∃ table, (⟨snapshots, m.columns⟩ : Run Float).table { separator := .singleton sep, pad } =
        .ok table ∧
      Report.TableShows sep m.columns snapshots table ∧
      ∃ lines, scan text = .ok lines ∧ m.columns.Sublist
        (((lines.map Line.pieces).flatMap declaredIn).map StockPiece.name).eraseDups := by
  obtain ⟨lines, scanned, declared, identifiers⟩ := exists_declared read
  obtain ⟨table, made⟩ : ∃ table, (⟨snapshots, m.columns⟩ : Run Float).table
      { separator := .singleton sep, pad } = .ok table :=
    Report.exists_table fun values listed =>
      List.Subset.trans m.columns_subset (stockNames_subset_of_run ran values listed)
  have names : ∀ name ∈ m.columns, Report.IsTokens name := fun name listed =>
    Report.isTokens_of_isIdentifier (identifiers name (m.columns_subset listed))
  refine ⟨table, made, Report.tableShows_of_table separates shown names made, lines, scanned, ?_⟩
  rw [← declared]
  exact List.filter_sublist.map _

/-- A spring that is not shown, and two stocks that are. -/
def trickling : Model Float where
  stocks := [
    .infinite "spring",
    { name := "pool_1", initial := .value (.decimal "0.5") },
    { name := "sea" }]
  flows := [
    ⟨"spring", "pool_1", .rate, .value (.whole "2")⟩,
    ⟨"pool_1", "sea", .leak, .value (.decimal "0.1")⟩]

theorem table_shows_trickling :
    ∃ (text : String) (snapshots : List (Snapshot Float)),
      Model.ofText "" text = .ok trickling ∧ trickling.run 2 [] = .ok snapshots ∧
      trickling.columns = ["pool_1", "sea"] ∧
      ∃ table, (⟨snapshots, trickling.columns⟩ : Run Float).table { separator := ",", pad := true } =
          .ok table ∧
        Report.TableShows ',' trickling.columns snapshots table := by
  have read : Model.ofText "" "[spring] > pool_1(0.5) @ 2\npool_1 > sea @ Leak(0.1)" =
      .ok trickling := by
    decide +kernel
  have ran : trickling.run 2 [] = .ok [
      [("spring", Quantity.infinity), ("pool_1", 0.5), ("sea", 0.0)],
      [("spring", Quantity.infinity), ("pool_1", 2.5), ("sea", 0.0)],
      [("spring", Quantity.infinity), ("pool_1", 4.5), ("sea", 0.0)]] := by
    decide +kernel
  obtain ⟨table, made, shows, -⟩ := table_shows read (by decide) ran (.inr rfl) true
  exact ⟨_, _, read, ran, rfl, table, made, shows⟩

end Model

end StockFlow
