import StockFlow.Proofs.Spec.Reading
import StockFlow.Quantity.Double

/-!
# The code of a spec

Comments, blanks and lines without code carry no meaning: specs of one code give the same model, or
they fail for the same cause, each at a line of its own (`Model.ofText_of_codes_eq`).

The proof leaves the places out (`reading`). What is left of the pieces of lines without comments
and without empty lines (`coded`) is found from the code alone (`coded_pieces`), and building makes
the same of it (`Builder.afterLines_coded`).
-/

namespace StockFlow

open StockFlow.Spec StockFlow.Text

variable {α : Type} [Quantity α]

namespace Spec

/-- The code of lines that have any. -/
def codesOf (texts : List String) : List (List Char) :=
  (texts.map (code ·.toList)).filter (!·.isEmpty)

/-- The code of a spec. -/
def codes (text : String) : List (List Char) :=
  codesOf (split '\n' text)

/-- Whether a piece is a comment. -/
def Piece.isComment : Piece → Bool
  | comment _ => true
  | _ => false

/-- The pieces of lines without the comments, and without the lines that have no others. -/
def coded (found : List (List Piece)) : List (List Piece) :=
  (found.map (·.filter (!·.isComment))).filter (!·.isEmpty)

theorem coded_cons (own : List Piece) (found : List (List Piece)) :
    coded (own :: found) = coded [own] ++ coded found := by
  rw [coded, List.map_cons, ← List.singleton_append, List.filter_append]
  rfl

@[simp] theorem filter_commentPieces (cs : List Char) : (commentPieces cs).filter (!·.isComment) = [] := by
  unfold commentPieces
  split <;> rfl

theorem coded_comments (cs : List Char) : coded [commentPieces cs] = [] := by
  simp [coded]

theorem coded_append_comments (own : List Piece) (cs : List Char) :
    coded [own ++ commentPieces cs] = coded [own] := by
  simp [coded]

theorem linePieces_eq (cs : List Char) :
    linePieces cs = (codePieces (code cs)).map (· ++ commentPieces cs) := by
  rw [linePieces]
  cases codePieces (code cs) <;> rfl

/-- What is left of a first line stands before what is left of the others. -/
theorem mapM_coded_cons {β : Type} (read : β → Except Fault (List Piece)) (first : β)
    (rest : List β) :
    ((first :: rest).mapM read).map coded =
      read first >>= fun own => ((rest.mapM read).map coded).map (coded [own] ++ ·) := by
  rw [List.mapM_cons]
  cases read first with
  | error fault => rfl
  | ok own =>
    cases rest.mapM read with
    | error fault => rfl
    | ok found => exact congrArg Except.ok (coded_cons own found)

/-- What is left of the pieces of lines depends on their code only. -/
theorem coded_pieces (texts : List String) :
    (pieces texts).map coded = ((codesOf texts).mapM codePieces).map coded := by
  unfold pieces
  induction texts with
  | nil => rfl
  | cons text rest ih =>
    rw [mapM_coded_cons, linePieces_eq, ih]
    cases own_code : code text.toList with
    | nil =>
      -- whether the line is blank or a comment, nothing is left of it
      have skipped : codesOf (text :: rest) = codesOf rest := by simp [codesOf, own_code]
      have nothing : codePieces [] = .ok [] := rfl
      rw [skipped, nothing]
      show (((codesOf rest).mapM codePieces).map coded).map (coded [commentPieces _] ++ ·) = _
      rw [coded_comments]
      cases (codesOf rest).mapM codePieces <;> rfl
    | cons c cs =>
      have kept : codesOf (text :: rest) = (c :: cs) :: codesOf rest := by
        simp [codesOf, own_code]
      rw [kept, mapM_coded_cons]
      cases codePieces (c :: cs) with
      | error fault => rfl
      | ok own =>
        show (((codesOf rest).mapM codePieces).map coded).map
          (coded [own ++ commentPieces _] ++ ·) = _
        rw [coded_append_comments]
        rfl

end Spec

namespace Builder

/-- Comments are built to no effect. -/
theorem addPieces_filter (b : Builder α) (ends : List String) (own : List Piece) :
    b.addPieces ends (own.filter (!·.isComment)) = b.addPieces ends own := by
  induction own generalizing b ends with
  | nil => rfl
  | cons piece rest ih =>
    cases piece with
    | stock written =>
      rw [List.filter_cons_of_pos rfl]
      unfold addPieces
      simp only [ih]
    | flow written =>
      rw [List.filter_cons_of_pos rfl]
      unfold addPieces
      simp only [ih]
    | direction => exact ih b ends
    | delimiter => exact ih b ends
    | comment text => exact ih b ends

theorem afterLine_filter (b : Builder α) (own : List Piece) :
    b.afterLine (own.filter (!·.isComment)) = b.afterLine own := by
  rw [afterLine, afterLine, addPieces_filter]

/-- Building lines is building what is left of them. -/
theorem afterLines_coded (b : Builder α) (found : List (List Piece)) :
    b.afterLines (coded found) = b.afterLines found := by
  rw [afterLines, coded, List.foldlM_filter, List.foldlM_map, afterLines]
  congr 1
  funext b own
  split
  · exact afterLine_filter b own
  · rename_i empty
    have none_left : own.filter (!·.isComment) = [] := by simpa using empty
    rw [← afterLine_filter, none_left]
    rfl

end Builder

namespace Spec

/-- The builder that the lines of a spec come to, a fault without its place. -/
def reading (name : String) (texts : List String) : Except Fault (Builder α) := do
  Builder.afterLines { name := name } (← pieces texts)

theorem reading_eq (name : String) (texts : List String) :
    (reading name texts : Except Fault (Builder α)) =
      (pieces texts).map coded >>= Builder.afterLines { name := name } := by
  unfold reading
  cases pieces texts with
  | error fault => rfl
  | ok found => exact (Builder.afterLines_coded ..).symm

/-- Without places, reading depends on the code only. -/
theorem reading_congr (name : String) {s t : String} (same : codes s = codes t) :
    (reading name (split '\n' s) : Except Fault (Builder α)) = reading name (split '\n' t) := by
  have left : (pieces (split '\n' s)).map coded = (pieces (split '\n' t)).map coded := by
    rw [coded_pieces, coded_pieces]
    exact congrArg (fun found => (List.mapM codePieces found).map coded) same
  rw [reading_eq, reading_eq, left]

/-- Reading fails just if there is a culprit. -/
theorem reading_eq_error_iff {name : String} {texts : List String} {cause : Fault} :
    (reading name texts : Except Fault (Builder α)) = .error cause ↔
      ∃ i line, texts[i]? = some line ∧ Culprit α name texts i cause := by
  rw [reading, bind_eq_error_iff]
  constructor
  · rintro (failed | ⟨found, read, failed⟩)
    · obtain ⟨i, line, here, stuck, earlier⟩ := mapM_eq_error_iff.1 failed
      exact ⟨i, line, here, .scan here stuck earlier⟩
    · obtain ⟨i, own, b, own_here, built, stuck⟩ := foldlM_eq_error_iff.1 failed
      have inside : i < texts.length := by
        rw [← length_pieces read]
        exact (List.getElem?_eq_some_iff.1 own_here).1
      exact ⟨i, texts[i], List.getElem?_eq_getElem inside, .build read built own_here stuck⟩
  · rintro ⟨i, line, -, culprit⟩
    cases culprit with
    | scan here stuck earlier => exact .inl (mapM_eq_error_iff.2 ⟨i, _, here, stuck, earlier⟩)
    | @build found b own _ read built own_here stuck =>
      exact .inr ⟨found, read, foldlM_eq_error_iff.2 ⟨i, own, b, own_here, built, stuck⟩⟩

end Spec

namespace Model

theorem ofText_of_reading {name text : String} {b : Builder α}
    (read : reading name (split '\n' text) = .ok b) : Model.ofText name text = .ok b.build := by
  obtain ⟨found, pieces_read, built⟩ := bind_eq_ok_iff.1 read
  exact ofText_eq_ok_iff.2 ⟨found, b, pieces_read, built, rfl⟩

theorem ofText_of_reading_error {name text : String} {cause : Fault}
    (failed : (reading name (split '\n' text) : Except Fault (Builder α)) = .error cause) :
    ∃ place, (Model.ofText name text : Except Fault (Model α)) = .error (cause.atLine place) := by
  obtain ⟨i, line, here, culprit⟩ := reading_eq_error_iff.1 failed
  exact ⟨_, ofText_eq_error_iff.2 ⟨i, line, cause, here, culprit, rfl⟩⟩

/-- Specs of one code give the same model or fail for the same cause, reported at one line or the
other. -/
theorem ofText_of_codes_eq (name : String) {s t : String} (same : codes s = codes t) :
    (∃ m : Model α, Model.ofText name s = .ok m ∧ Model.ofText name t = .ok m) ∨
      ∃ (cause : Fault) (place place' : Place),
        (Model.ofText name s : Except Fault (Model α)) = .error (cause.atLine place) ∧
          (Model.ofText name t : Except Fault (Model α)) = .error (cause.atLine place') := by
  have read_same : (reading name (split '\n' s) : Except Fault (Builder α)) = _ :=
    reading_congr name same
  cases read : (reading name (split '\n' s) : Except Fault (Builder α)) with
  | ok b => exact .inl ⟨b.build, ofText_of_reading read, ofText_of_reading (read_same ▸ read)⟩
  | error cause =>
    obtain ⟨place, failed⟩ := ofText_of_reading_error read
    obtain ⟨place', failed'⟩ := ofText_of_reading_error (read_same ▸ read)
    exact .inr ⟨cause, place, place', failed, failed'⟩

/-- The same two lines, once with blanks, comments and lines without code; and two stocks of one name,
the second of which is refused wherever it stands. -/
theorem ofText_of_codes_eq_commented :
    (∃ m : Model Float, Model.ofText "" "a(5) > b @ 2\n[c] > a @ 1" = .ok m ∧
      Model.ofText "" "# flows\n\ta( 5 )>b@2 # two\n\n [ c ] > a @1#" = .ok m) ∧
    ∃ (cause : Fault) (place place' : Place),
      (Model.ofText "" "a(1)\na(2)" : Except Fault (Model Float)) = .error (cause.atLine place) ∧
        (Model.ofText "" "a (1)\n#\na(2) #" : Except Fault (Model Float)) =
          .error (cause.atLine place') := by
  have flows : codes "a(5) > b @ 2\n[c] > a @ 1" =
      codes "# flows\n\ta( 5 )>b@2 # two\n\n [ c ] > a @1#" := by decide +kernel
  have stocks : codes "a(1)\na(2)" = codes "a (1)\n#\na(2) #" := by decide +kernel
  refine ⟨(ofText_of_codes_eq "" flows).resolve_right ?_,
    (ofText_of_codes_eq "" stocks).resolve_left ?_⟩
  · rintro ⟨_, _, _, failed, -⟩
    have read : (Model.ofText "" "a(5) > b @ 2\n[c] > a @ 1" :
        Except Fault (Model Float)).toOption.isSome = true := by decide +kernel
    rw [failed] at read
    cases read
  · rintro ⟨_, read, -⟩
    have failed : (Model.ofText "" "a(1)\na(2)" : Except Fault (Model Float)).toOption = none := by
      decide +kernel
    rw [read] at failed
    cases failed

end Model

end StockFlow
