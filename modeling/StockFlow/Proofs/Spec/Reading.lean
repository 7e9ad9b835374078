import StockFlow.Proofs.Spec.Faults
import StockFlow.Proofs.Spec.LinePass
import StockFlow.Spec.Build

/-!
# Reading a spec

A spec is read in two goes: the pieces of all its lines are found, and then the lines are built, one
after the other (`Builder.afterLines`). A model comes of it just if no line fails in either
(`Model.ofText_eq_ok_iff`). Otherwise the first line that cannot be scanned is the culprit, wherever
it stands, and only where there is none the first one that cannot be built behind those before it
(`Model.ofText_fails`).
-/

namespace StockFlow

open StockFlow.Spec StockFlow.Text

variable {α : Type} [Quantity α]

/-! ## Without places -/

namespace Builder

/-- The builder once the pieces of a line have been built. -/
def afterLine (b : Builder α) (pieces : List Piece) : Except Fault (Builder α) :=
  let attempt := b.addPieces [] pieces
  attempt.result.map fun _ => attempt.after

/-- The builder once a line has been built; a fault is one of the line. -/
def afterPlaced (b : Builder α) (line : Line) : Except Fault (Builder α) :=
  (b.afterLine line.pieces).mapError (·.atLine line.place)

/-- The builder once the pieces of lines have been built, line after line. -/
def afterLines (b : Builder α) (lines : List (List Piece)) : Except Fault (Builder α) :=
  lines.foldlM afterLine b

theorem afterLine_nil (b : Builder α) : b.afterLine [] = .ok b :=
  rfl

/-- Building lines, the fault of each at its place. -/
theorem result_addLines (b : Builder α) (lines : List Line) :
    ((b.addLines lines).result.map fun _ => (b.addLines lines).after) =
      lines.foldlM afterPlaced b := by
  induction lines generalizing b with
  | nil => rfl
  | cons line rest ih =>
    rw [addLines, List.foldlM_cons, afterPlaced, afterLine]
    cases done : (b.addPieces [] line.pieces).result with
    | error fault =>
      have stuck : (b.addLine line).result = .error (fault.atLine line.place) := by
        rw [addLine, done]
        rfl
      rw [Attempt.andThen_of_error stuck]
      rfl
    | ok _ =>
      have added : (b.addLine line).result = .ok () := by
        rw [addLine, done]
        rfl
      rw [Attempt.andThen_of_ok added]
      exact ih _

end Builder

namespace Spec

/-- The pieces of each line. -/
def pieces (texts : List String) : Except Fault (List (List Piece)) :=
  texts.mapM (linePieces ·.toList)

/-- Lines with their pieces, numbered from `first` on. -/
def numbered (first : Nat) (texts : List String) (found : List (List Piece)) : List Line :=
  List.zipWith (fun numbered pieces => ⟨numbered.2, pieces, numbered.1⟩) (texts.zipIdx first) found

theorem mapM_ofText_eq_ok_iff {first : Nat} {texts : List String} {lines : List Line} :
    ((texts.zipIdx first).mapM fun (text, number) => Line.ofText number text) = .ok lines ↔
      ∃ found, pieces texts = .ok found ∧ lines = numbered first texts found := by
  induction texts generalizing first lines with
  | nil =>
    exact ⟨fun done => ⟨[], rfl, (Except.ok.inj done).symm⟩, fun ⟨found, done, same⟩ => by
      rw [same, ← Except.ok.inj done]; rfl⟩
  | cons text rest ih =>
    rw [List.zipIdx_cons, List.mapM_cons, pieces, List.mapM_cons]
    simp only [bind_eq_ok_iff, Line.ofText_eq_ok_iff, ih]
    constructor
    · rintro ⟨_, ⟨own, read, rfl⟩, _, ⟨found, others, rfl⟩, same⟩
      exact ⟨own :: found, ⟨own, read, found, others, rfl⟩, (Except.ok.inj same).symm⟩
    · rintro ⟨_, ⟨own, read, found, others, same⟩, rfl⟩
      obtain rfl := Except.ok.inj same
      exact ⟨_, ⟨own, read, rfl⟩, _, ⟨found, others, rfl⟩, rfl⟩

theorem mapM_ofText_eq_error_iff {first : Nat} {texts : List String} {fault : Fault} :
    ((texts.zipIdx first).mapM fun (text, number) => Line.ofText number text) = .error fault ↔
      ∃ i text cause, texts[i]? = some text ∧ linePieces text.toList = .error cause ∧
        (∀ other ∈ texts.take i, ∃ own, linePieces other.toList = .ok own) ∧
        fault = cause.atLine ⟨text, (first + i : Nat)⟩ := by
  have readable_iff : ∀ number text,
      (∃ line, Line.ofText number text = .ok line) ↔ ∃ own, linePieces text.toList = .ok own := by
    intro number text
    simp [Line.ofText_eq_ok_iff]
  have earlier_iff : ∀ i,
      (∀ entry ∈ (texts.zipIdx first).take i, ∃ line, Line.ofText entry.2 entry.1 = .ok line) ↔
        ∀ other ∈ texts.take i, ∃ own, linePieces other.toList = .ok own := by
    intro i
    have texts_taken : ((texts.zipIdx first).take i).map Prod.fst = texts.take i := by
      rw [List.map_take, List.zipIdx_map_fst]
    simp only [readable_iff, ← texts_taken, List.forall_mem_map]
  simp only [mapM_eq_error_iff, earlier_iff, Line.ofText_eq_error_iff, List.getElem?_zipIdx,
    Option.map_eq_some_iff]
  constructor
  · rintro ⟨i, _, ⟨text, here, rfl⟩, ⟨cause, failed, rfl⟩, earlier⟩
    exact ⟨i, text, cause, here, failed, earlier, rfl⟩
  · rintro ⟨i, text, cause, here, failed, earlier, rfl⟩
    exact ⟨i, _, ⟨text, here, rfl⟩, ⟨cause, failed, rfl⟩, earlier⟩

theorem getElem?_numbered {first i : Nat} {texts : List String} {found : List (List Piece)}
    {line : Line} :
    (numbered first texts found)[i]? = some line ↔
      ∃ text own, texts[i]? = some text ∧ found[i]? = some own ∧
        line = ⟨first + i, own, text⟩ := by
  unfold numbered
  simp only [List.getElem?_zipWith_eq_some, List.getElem?_zipIdx, Option.map_eq_some_iff]
  constructor
  · rintro ⟨_, own, ⟨text, listed, rfl⟩, read, rfl⟩
    exact ⟨text, own, listed, read, rfl⟩
  · rintro ⟨text, own, listed, read, rfl⟩
    exact ⟨_, own, ⟨text, listed, rfl⟩, read, rfl⟩

theorem length_pieces {texts : List String} {found : List (List Piece)}
    (read : pieces texts = .ok found) : found.length = texts.length :=
  (mapM_eq_ok_iff.1 read).length_eq.symm

/-- Numbering keeps the pieces. -/
theorem map_pieces_numbered {first : Nat} {texts : List String} {found : List (List Piece)}
    (same : found.length = texts.length) : (numbered first texts found).map Line.pieces = found := by
  rw [numbered, List.map_zipWith]
  show List.zipWith (fun _ own => own) (texts.zipIdx first) found = found
  rw [← List.map_uncurry_zip_eq_zipWith]
  have enough : found.length = (texts.zipIdx first).length := by rw [List.length_zipIdx, same]
  exact List.map_snd_zip (Nat.le_of_eq enough)

end Spec

/-- Lines without a piece are built to no effect. -/
theorem Builder.afterPlaced_filter (b : Builder α) (lines : List Line) :
    (lines.filter (!·.pieces.isEmpty)).foldlM afterPlaced b = lines.foldlM afterPlaced b := by
  rw [List.foldlM_filter]
  congr 1
  funext b line
  split
  · rfl
  · rename_i empty
    have none_found : line.pieces = [] := by simpa using empty
    rw [afterPlaced, none_found, afterLine_nil]
    rfl

/-- A model is what building all lines comes to, each fault at its place. -/
theorem Model.ofText_eq (name text : String) :
    (Model.ofText name text : Except Fault (Model α)) = (do
      let lines ← ((split '\n' text).zipIdx 1).mapM fun (text, number) => Line.ofText number text
      let b ← lines.foldlM Builder.afterPlaced { name := name }
      return b.build) := by
  unfold Model.ofText scan
  cases ((split '\n' text).zipIdx 1).mapM fun (text, number) => Line.ofText number text with
  | error fault => rfl
  | ok lines =>
    let attempt := Builder.addLines ({ name := name } : Builder α)
      (lines.filter (!·.pieces.isEmpty))
    have built : (attempt.result.map fun _ => attempt.after) = lines.foldlM _ _ :=
      (Builder.result_addLines ..).trans (Builder.afterPlaced_filter ..)
    show _ = lines.foldlM Builder.afterPlaced ({ name := name } : Builder α) >>= fun b => .ok b.build
    rw [← built]
    show (attempt.result >>= fun _ => _) = _
    cases attempt.result <;> rfl

namespace Builder

theorem afterPlaced_eq_ok_iff {b b' : Builder α} {line : Line} :
    b.afterPlaced line = .ok b' ↔ b.afterLine line.pieces = .ok b' := by
  unfold afterPlaced
  cases b.afterLine line.pieces <;> simp [Except.mapError]

theorem afterPlaced_eq_error_iff {b : Builder α} {line : Line} {fault : Fault} :
    b.afterPlaced line = .error fault ↔
      ∃ cause, b.afterLine line.pieces = .error cause ∧ fault = cause.atLine line.place := by
  unfold afterPlaced
  cases b.afterLine line.pieces <;> simp [Except.mapError, eq_comm]

theorem foldlM_afterPlaced_eq_ok_iff {b b' : Builder α} {lines : List Line} :
    lines.foldlM afterPlaced b = .ok b' ↔ b.afterLines (lines.map Line.pieces) = .ok b' := by
  induction lines generalizing b with
  | nil => rfl
  | cons line rest ih =>
    rw [List.map_cons, afterLines, List.foldlM_cons, List.foldlM_cons, bind_eq_ok_iff,
      bind_eq_ok_iff]
    simp only [afterPlaced_eq_ok_iff, ih, afterLines]

end Builder

/-- A spec is read just if the pieces of all its lines can be found and be built. -/
theorem Model.ofText_eq_ok_iff {name text : String} {m : Model α} :
    Model.ofText name text = .ok m ↔
      ∃ found b, pieces (split '\n' text) = .ok found ∧
        Builder.afterLines { name := name } found = .ok b ∧ m = b.build := by
  rw [ofText_eq]
  simp only [bind_eq_ok_iff, mapM_ofText_eq_ok_iff, Builder.foldlM_afterPlaced_eq_ok_iff]
  constructor
  · rintro ⟨_, ⟨found, read, rfl⟩, b, built, same⟩
    rw [map_pieces_numbered (length_pieces read)] at built
    exact ⟨found, b, read, built, (Except.ok.inj same).symm⟩
  · rintro ⟨found, b, read, built, rfl⟩
    refine ⟨_, ⟨found, read, rfl⟩, b, ?_, rfl⟩
    rwa [map_pieces_numbered (length_pieces read)]

/-! ## Culprits -/

/-- The line that a spec fails for, counted from zero, and the cause. -/
inductive Spec.Culprit (α : Type) [Quantity α] (name : String) (texts : List String) (i : Nat) :
    Fault → Prop
  /-- The first line whose pieces cannot be found, whatever building others would come to. -/
  | scan {text : String} {cause : Fault} (here : texts[i]? = some text)
      (failed : linePieces text.toList = .error cause)
      (earlier : ∀ other ∈ texts.take i, ∃ own, linePieces other.toList = .ok own) :
      Culprit α name texts i cause
  /-- Where the pieces of all lines are found, the first line that cannot be built behind those
  before it. -/
  | build {found : List (List Piece)} {b : Builder α} {own : List Piece} {cause : Fault}
      (scanned : pieces texts = .ok found)
      (built : Builder.afterLines { name := name } (found.take i) = .ok b)
      (here : found[i]? = some own) (failed : b.afterLine own = .error cause) :
      Culprit α name texts i cause

/-- A spec is not read just if it has a culprit; the fault has its place. -/
theorem Model.ofText_eq_error_iff {name text : String} {fault : Fault} :
    (Model.ofText name text : Except Fault (Model α)) = .error fault ↔
      ∃ i line cause, (split '\n' text)[i]? = some line ∧
        Culprit α name (split '\n' text) i cause ∧ fault = cause.atLine ⟨line, i + 1⟩ := by
  -- lines are numbered from one, and `i` counts from zero
  have number : ∀ i : Nat, ((1 + i : Nat) : Int) = i + 1 := fun i => by omega
  rw [ofText_eq, bind_eq_error_iff, mapM_ofText_eq_error_iff]
  constructor
  · rintro (⟨i, line, cause, here, failed, earlier, rfl⟩ | ⟨lines, scanned, failed⟩)
    · exact ⟨i, line, cause, here, .scan here failed earlier, by rw [number]⟩
    · obtain ⟨found, read, rfl⟩ := mapM_ofText_eq_ok_iff.1 scanned
      rcases bind_eq_error_iff.1 failed with failed | ⟨_, -, failed⟩
      · obtain ⟨i, _, b, listed, built, failed⟩ := foldlM_eq_error_iff.1 failed
        obtain ⟨line, own, here, own_here, rfl⟩ := getElem?_numbered.1 listed
        obtain ⟨cause, stuck, rfl⟩ := Builder.afterPlaced_eq_error_iff.1 failed
        rw [Builder.foldlM_afterPlaced_eq_ok_iff, List.map_take,
          map_pieces_numbered (length_pieces read)] at built
        exact ⟨i, line, cause, here, .build read built own_here stuck, by rw [Line.place, number]⟩
      · cases failed
  · rintro ⟨i, line, cause, here, culprit, rfl⟩
    cases culprit with
    | @scan text _ at_i failed earlier =>
      obtain rfl : text = line := Option.some.inj (at_i.symm.trans here)
      exact .inl ⟨i, text, cause, here, failed, earlier, by rw [number]⟩
    | @build found b own _ read built own_here failed =>
      refine .inr ⟨_, mapM_ofText_eq_ok_iff.2 ⟨found, read, rfl⟩, bind_eq_error_iff.2 (.inl ?_)⟩
      refine foldlM_eq_error_iff.2
        ⟨i, _, b, getElem?_numbered.2 ⟨line, own, here, own_here, rfl⟩, ?_, ?_⟩
      · rw [Builder.foldlM_afterPlaced_eq_ok_iff, List.map_take,
          map_pieces_numbered (length_pieces read)]
        exact built
      · exact Builder.afterPlaced_eq_error_iff.2 ⟨cause, failed, by rw [Line.place, number]⟩

/-- The lines of a spec hold no line break. -/
theorem Spec.notMem_of_mem_split {text line : String} (listed : line ∈ split '\n' text) :
    '\n' ∉ line.toList := by
  obtain ⟨cs, part, rfl⟩ := List.mem_map.1 listed
  rw [String.toList_ofList]
  exact notMem_of_mem_splitOn part

/-- A spec gives a model, or a fault that has a line of the spec as its place: that of the culprit.

A pass over a line agrees with its pieces and leaves nothing in its buffer, and it fails by a fault
of specs only, for which the line is reported. -/
theorem Model.ofText_fails (name text : String) :
    (∀ line ∈ split '\n' text,
      (LinePass.read line.toList).map (fun last => (last.pieces, last.buffer)) =
          (linePieces line.toList).map (·, []) ∧
        ∀ cause, LinePass.read line.toList = .error cause → cause.isOfModel = true) ∧
      (∀ m : Model α, Model.ofText name text = .ok m ↔
        ∃ found b, pieces (split '\n' text) = .ok found ∧
          Builder.afterLines { name := name } found = .ok b ∧ m = b.build) ∧
      ∀ fault, (Model.ofText name text : Except Fault (Model α)) = .error fault ↔
        ∃ i line cause, (split '\n' text)[i]? = some line ∧
          Culprit α name (split '\n' text) i cause ∧ fault = cause.atLine ⟨line, i + 1⟩ ∧
          fault.place? = some ⟨line, i + 1⟩ := by
  refine ⟨fun line listed => ?_, fun m => ofText_eq_ok_iff, fun fault => ?_⟩
  · have agreed := LinePass.read_eq (notMem_of_mem_split listed)
    refine ⟨agreed, fun cause failed => ?_⟩
    rw [failed] at agreed
    exact isOfModel_of_linePieces (map_eq_error_iff.1 agreed.symm)
  · rw [ofText_eq_error_iff]
    constructor
    · rintro ⟨i, line, cause, here, culprit, rfl⟩
      exact ⟨i, line, cause, here, culprit, rfl, Fault.place?_atLine ..⟩
    · rintro ⟨i, line, cause, here, culprit, rfl, -⟩
      exact ⟨i, line, cause, here, culprit, rfl⟩

end StockFlow
