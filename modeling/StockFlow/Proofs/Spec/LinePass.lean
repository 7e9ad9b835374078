import StockFlow.Attempt
import StockFlow.Spec.Line

/-!
# Lines in one pass

The pieces of a line are put together from its code and its comment. A line can also be read in one
pass over its characters, which keeps those that are no piece yet in a buffer and knows what they
will be part of. Whatever the pass has read, the pieces found so far and those still to come are the
pieces of the line (`LinePass.step_complete`); so it finds the pieces of the line or fails as they
do, and its buffer is empty in the end (`LinePass.read_eq`).
-/

namespace StockFlow.Spec

open StockFlow.Text

/-- What the characters that come next in a line are part of. -/
inductive LinePart where
  | stock
  | flow
  | comment
  deriving DecidableEq, Repr

/-- A pass over the characters of a line. -/
structure LinePass where
  part : LinePart := .stock
  /-- Characters that have been read and are no piece yet. -/
  buffer : List Char := []
  pieces : List Piece := []
  deriving DecidableEq, Repr

namespace LinePass

/-- Makes a stock of the buffer, with a mark behind it, and goes on with `part`. -/
def closeStock (pass : LinePass) (mark : Piece) (part : LinePart) : Except Fault LinePass :=
  (StockPiece.ofChars pass.buffer).map fun stock =>
    { part, buffer := [], pieces := pass.pieces ++ [.stock stock, mark] }

/-- Makes the last piece before the comment of the buffer; an empty one makes none. -/
def flush (pass : LinePass) : Except Fault LinePass :=
  if pass.buffer.isEmpty then .ok pass
  else
    let piece :=
      if pass.part = .flow then (FlowPiece.ofChars pass.buffer).map Piece.flow
      else (StockPiece.ofChars pass.buffer).map Piece.stock
    piece.map fun piece => { pass with buffer := [], pieces := pass.pieces ++ [piece] }

/-- Reads one character; a line break ends the line. -/
def step (pass : LinePass) (c : Char) : Except Fault LinePass :=
  if pass.part = .comment then
    if c = '\n' then
      .ok { pass with buffer := [], pieces := pass.pieces ++ [.comment (.ofList pass.buffer)] }
    else .ok { pass with buffer := pass.buffer ++ [c] }
  else if c = '#' then pass.flush.map ({ · with part := .comment })
  else if c = '>' && pass.part = .stock then pass.closeStock .direction .stock
  else if c = '@' && pass.part = .stock then pass.closeStock .delimiter .flow
  else if c = '\n' then pass.flush
  else if isBlank c || c = '>' then .ok pass
  else .ok { pass with buffer := pass.buffer ++ [c] }

/-- The pass over a line, which a line break ends. -/
def read (cs : List Char) : Except Fault LinePass :=
  (cs ++ ['\n']).foldlM step {}

end LinePass

/-! ## Code from the front -/

theorem code_mark (cs : List Char) : code ('#' :: cs) = [] :=
  rfl

theorem code_blank {c : Char} (blank : isBlank c = true) (cs : List Char) :
    code (c :: cs) = code cs := by
  have other : c ≠ '#' := by
    rintro rfl
    exact absurd blank (by decide)
  simp [code, other, blank]

theorem code_solid {c : Char} (other : c ≠ '#') (solid : isBlank c = false) (cs : List Char) :
    code (c :: cs) = c :: code cs := by
  simp [code, other, solid]

theorem commentPieces_mark (cs : List Char) :
    commentPieces ('#' :: cs) = [.comment (.ofList cs)] :=
  rfl

theorem commentPieces_cons {c : Char} (other : c ≠ '#') (cs : List Char) :
    commentPieces (c :: cs) = commentPieces cs := by
  simp [commentPieces, other]

theorem stockPieces_cons {marked : Bool} {cs : List Char} {rest : List (List Char)}
    (some : rest ≠ []) :
    stockPieces marked (cs :: rest) = (do
      let stock ← StockPiece.ofChars cs
      return .stock stock :: .direction :: (← stockPieces marked rest)) := by
  rw [stockPieces]
  exact some

/-- Characters of a stock: none of them starts anything else. -/
def IsStockPart (cs : List Char) : Prop :=
  ∀ c ∈ cs, c ≠ '>' ∧ c ≠ '@'

namespace IsStockPart

variable {front : List Char} (plain : IsStockPart front)

include plain

theorem before_flow (rest : List Char) :
    (front ++ rest).takeWhile (· ≠ '@') = front ++ rest.takeWhile (· ≠ '@') ∧
      (front ++ rest).dropWhile (· ≠ '@') = rest.dropWhile (· ≠ '@') := by
  have passes : ∀ c ∈ front, decide (c ≠ '@') = true := fun c listed => by
    simpa using (plain c listed).2
  exact ⟨List.takeWhile_append_of_pos passes, List.dropWhile_append_of_pos passes⟩

theorem splitOn_eq : front.splitOn '>' = [front] :=
  List.splitOn_eq_singleton fun listed => (plain '>' listed).1 rfl

/-- The last stock of a line without a flow may be missing. -/
theorem codePieces_eq :
    codePieces front =
      if front.isEmpty then .ok [] else (StockPiece.ofChars front).map ([.stock ·]) := by
  obtain ⟨taken, dropped⟩ := plain.before_flow []
  rw [List.append_nil] at taken dropped
  rw [codePieces, taken, dropped]
  simp only [List.takeWhile_nil, List.append_nil, plain.splitOn_eq, stockPieces]
  cases front with
  | nil => rfl
  | cons c cs => cases StockPiece.ofChars (c :: cs) <;> rfl

/-- An arrow ends a stock and leaves the others as they are. -/
theorem codePieces_direction (rest : List Char) :
    codePieces (front ++ '>' :: rest) = (do
      let stock ← StockPiece.ofChars front
      return .stock stock :: .direction :: (← codePieces rest)) := by
  obtain ⟨taken, dropped⟩ := plain.before_flow ('>' :: rest)
  have apart : '>' ∉ front := fun listed => (plain '>' listed).1 rfl
  have parts : (front ++ '>' :: rest.takeWhile (· ≠ '@')).splitOn '>' =
      front :: (rest.takeWhile (· ≠ '@')).splitOn '>' := by
    rw [List.splitOn_append_cons_self, plain.splitOn_eq]
    rfl
  rw [List.takeWhile_cons_of_pos (by decide)] at taken
  rw [List.dropWhile_cons_of_pos (by decide)] at dropped
  rw [codePieces, taken, dropped, parts, codePieces]
  rw [stockPieces_cons (List.splitOn_ne_nil _ _)]
  cases StockPiece.ofChars front with
  | error fault => rfl
  | ok stock =>
    cases stockPieces (!(rest.dropWhile (· ≠ '@')).isEmpty)
        ((rest.takeWhile (· ≠ '@')).splitOn '>') with
    | error fault => rfl
    | ok stocks => cases flowPieces (rest.dropWhile (· ≠ '@')).tail <;> rfl

/-- The mark ends a stock and leaves the flow. -/
theorem codePieces_delimiter (rest : List Char) :
    codePieces (front ++ '@' :: rest) = (do
      let stock ← StockPiece.ofChars front
      return .stock stock :: .delimiter :: (← flowPieces rest)) := by
  obtain ⟨taken, dropped⟩ := plain.before_flow ('@' :: rest)
  rw [List.takeWhile_cons_of_neg (by decide), List.append_nil] at taken
  rw [List.dropWhile_cons_of_neg (by decide)] at dropped
  rw [codePieces, taken, dropped, plain.splitOn_eq, stockPieces, List.isEmpty_cons,
    Bool.not_false, if_pos rfl, List.tail_cons]
  cases StockPiece.ofChars front with
  | error fault => rfl
  | ok stock => cases flowPieces rest <;> rfl

end IsStockPart

theorem flowPieces_eq {cs : List Char} (plain : '>' ∉ cs) :
    flowPieces cs = if cs.isEmpty then .ok [] else (FlowPiece.ofChars cs).map ([.flow ·]) := by
  have kept : cs.filter (· ≠ '>') = cs := List.filter_eq_self.2 fun c listed => by
    rw [decide_eq_true_eq]
    rintro rfl
    exact plain listed
  simp only [flowPieces, kept]

theorem flowPieces_direction (front rest : List Char) :
    flowPieces (front ++ '>' :: rest) = flowPieces (front ++ rest) := by
  simp [flowPieces]

/-! ## The pass -/

/-- The pieces that characters make as part of what is being read. -/
def LinePart.pieces : LinePart → List Char → Except Fault (List Piece)
  | stock, cs => codePieces cs
  | flow, cs => flowPieces cs
  | comment, cs => .ok [.comment (.ofList cs)]

namespace LinePass

/-- The pieces of what is in the buffer and what is still to be read. -/
def remaining (pass : LinePass) (cs : List Char) : Except Fault (List Piece) :=
  if pass.part = .comment then pass.part.pieces (pass.buffer ++ cs)
  else do return (← pass.part.pieces (pass.buffer ++ code cs)) ++ commentPieces cs

/-- All pieces of a line of which a pass has still to read `cs`. -/
def complete (pass : LinePass) (cs : List Char) : Except Fault (List Piece) :=
  (pass.remaining cs).map (pass.pieces ++ ·)

/-- The buffer holds nothing that would have ended it, and no arrow of a flow. -/
structure Plain (pass : LinePass) : Prop where
  stock : pass.part = .stock → IsStockPart pass.buffer
  flow : pass.part = .flow → '>' ∉ pass.buffer

variable {pass : LinePass}

/-- Flushing makes of the buffer what the characters in it make by themselves. -/
theorem flush_eq (plain : pass.Plain) (code : pass.part ≠ .comment) :
    pass.flush = (pass.part.pieces pass.buffer).map fun found =>
      { pass with buffer := [], pieces := pass.pieces ++ found } := by
  obtain ⟨part, buffer, pieces⟩ := pass
  cases part with
  | comment => exact absurd rfl code
  | stock =>
    simp only [flush, LinePart.pieces, (plain.stock rfl).codePieces_eq]
    cases buffer with
    | nil => simp [Except.map]
    | cons c cs => cases StockPiece.ofChars (c :: cs) <;> rfl
  | flow =>
    simp only [flush, LinePart.pieces, flowPieces_eq (plain.flow rfl)]
    cases buffer with
    | nil => simp [Except.map]
    | cons c cs => cases FlowPiece.ofChars (c :: cs) <;> rfl

/-- A character that is put into the buffer was the next to be read. -/
theorem complete_push (pass : LinePass) (c : Char) (cs : List Char)
    (kept : pass.part = .comment ∨ c ≠ '#' ∧ isBlank c = false) :
    complete { pass with buffer := pass.buffer ++ [c] } cs = pass.complete (c :: cs) := by
  unfold complete remaining
  by_cases comment : pass.part = .comment
  · simp [comment]
  · obtain ⟨other, solid⟩ := kept.resolve_left comment
    simp [comment, code_solid other solid, commentPieces_cons other]

/-- After a stock and the mark behind it come the pieces of what is read next. -/
theorem complete_closeStock (mark : Piece) {part : LinePart} (code : part ≠ .comment)
    (cs : List Char) :
    (pass.closeStock mark part >>= fun next => next.complete cs) =
      (do
        let stock ← StockPiece.ofChars pass.buffer
        let found ← part.pieces (Spec.code cs)
        return Piece.stock stock :: mark :: found ++ commentPieces cs).map (pass.pieces ++ ·) := by
  unfold closeStock
  cases StockPiece.ofChars pass.buffer with
  | error fault => rfl
  | ok stock =>
    show complete ⟨part, [], pass.pieces ++ [.stock stock, mark]⟩ cs = _
    rw [complete, remaining, if_neg code, List.nil_append]
    cases part.pieces (Spec.code cs) with
    | error fault => rfl
    | ok found => exact congrArg Except.ok (List.append_assoc ..)

theorem step_complete_mark (plain : pass.Plain) (code : pass.part ≠ .comment) (cs : List Char) :
    (pass.step '#' >>= fun next => next.complete cs) = pass.complete ('#' :: cs) := by
  rw [step, if_neg code, if_pos rfl, flush_eq plain code, complete, remaining, if_neg code,
    code_mark, commentPieces_mark, List.append_nil]
  cases pass.part.pieces pass.buffer with
  | error fault => rfl
  | ok found => exact congrArg Except.ok (List.append_assoc ..)

/-- An arrow ends a stock; in a flow it carries no meaning. -/
theorem step_complete_direction (plain : pass.Plain) (code : pass.part ≠ .comment)
    (cs : List Char) :
    (pass.step '>' >>= fun next => next.complete cs) = pass.complete ('>' :: cs) := by
  obtain ⟨part, buffer, pieces⟩ := pass
  have solid : Spec.code ('>' :: cs) = '>' :: Spec.code cs := code_solid (by decide) (by decide) cs
  rw [complete, remaining, if_neg code, solid, commentPieces_cons (by decide)]
  cases part with
  | comment => exact absurd rfl code
  | stock =>
    have stepped : step ⟨.stock, buffer, pieces⟩ '>' =
        closeStock ⟨.stock, buffer, pieces⟩ .direction .stock := rfl
    rw [stepped, complete_closeStock .direction (by decide)]
    simp only [LinePart.pieces, (plain.stock rfl).codePieces_direction]
    cases StockPiece.ofChars buffer with
    | error fault => rfl
    | ok stock => cases codePieces (Spec.code cs) <;> rfl
  | flow =>
    simp only [LinePart.pieces, flowPieces_direction]
    rfl

/-- The mark ends the last stock; in a flow it is a character like others. -/
theorem step_complete_delimiter (plain : pass.Plain) (code : pass.part ≠ .comment)
    (cs : List Char) :
    (pass.step '@' >>= fun next => next.complete cs) = pass.complete ('@' :: cs) := by
  obtain ⟨part, buffer, pieces⟩ := pass
  cases part with
  | comment => exact absurd rfl code
  | flow => exact complete_push ⟨.flow, buffer, pieces⟩ '@' cs (.inr (by decide))
  | stock =>
    have solid : Spec.code ('@' :: cs) = '@' :: Spec.code cs :=
      code_solid (by decide) (by decide) cs
    have stepped : step ⟨.stock, buffer, pieces⟩ '@' =
        closeStock ⟨.stock, buffer, pieces⟩ .delimiter .flow := rfl
    rw [stepped, complete_closeStock .delimiter (by decide), complete, remaining, if_neg code,
      solid, commentPieces_cons (by decide)]
    simp only [LinePart.pieces, (plain.stock rfl).codePieces_delimiter]
    cases StockPiece.ofChars buffer with
    | error fault => rfl
    | ok stock => cases flowPieces (Spec.code cs) <;> rfl

/-- A step leaves the pieces of the line as they are: what it reads comes into the buffer, becomes a
piece with it, or carries no meaning. -/
theorem step_complete (plain : pass.Plain) {c : Char} (inside : c ≠ '\n') (cs : List Char) :
    (pass.step c >>= fun next => next.complete cs) = pass.complete (c :: cs) := by
  by_cases comment : pass.part = .comment
  · rw [step, if_pos comment, if_neg inside]
    exact complete_push pass c cs (.inl comment)
  by_cases mark : c = '#'
  · exact mark ▸ step_complete_mark plain comment cs
  by_cases direction : c = '>'
  · exact direction ▸ step_complete_direction plain comment cs
  by_cases delimiter : c = '@'
  · exact delimiter ▸ step_complete_delimiter plain comment cs
  have stepped : pass.step c =
      if isBlank c then .ok pass else .ok { pass with buffer := pass.buffer ++ [c] } := by
    simp [step, comment, mark, direction, delimiter, inside]
  cases blank : isBlank c with
  | true =>
    rw [stepped, if_pos blank]
    show pass.complete cs = _
    rw [complete, complete, remaining, remaining, if_neg comment, if_neg comment, code_blank blank,
      commentPieces_cons mark]
  | false =>
    rw [stepped, if_neg (by simp [blank])]
    exact complete_push pass c cs (.inr ⟨mark, blank⟩)

theorem Plain.empty (part : LinePart) (pieces : List Piece) : Plain ⟨part, [], pieces⟩ := by
  constructor
  · intro _ c listed
    cases listed
  · exact fun _ => List.not_mem_nil

theorem Plain.flush (plain : pass.Plain) {next : LinePass} (flushed : pass.flush = .ok next) :
    next.Plain := by
  unfold LinePass.flush at flushed
  split at flushed
  · exact Except.ok.inj flushed ▸ plain
  · obtain ⟨piece, -, rfl⟩ := map_eq_ok_iff.1 flushed
    exact .empty ..

theorem Plain.push (plain : pass.Plain) {c : Char}
    (kept : pass.part = .comment ∨ c ≠ '>' ∧ ¬ (c = '@' ∧ pass.part = .stock)) :
    Plain { pass with buffer := pass.buffer ++ [c] } := by
  constructor
  · intro part d listed
    obtain ⟨no_arrow, no_mark⟩ := kept.resolve_left (by rw [part]; decide)
    rcases List.mem_append.1 listed with before | here
    · exact plain.stock part d before
    · rw [List.mem_singleton.1 here]
      exact ⟨no_arrow, fun mark => no_mark ⟨mark, part⟩⟩
  · intro part listed
    obtain ⟨no_arrow, -⟩ := kept.resolve_left (by rw [part]; decide)
    rcases List.mem_append.1 listed with before | here
    · exact plain.flow part before
    · exact no_arrow (List.mem_singleton.1 here).symm

theorem Plain.step (plain : pass.Plain) {c : Char} {next : LinePass}
    (stepped : pass.step c = .ok next) : next.Plain := by
  unfold LinePass.step at stepped
  split at stepped
  · rename_i comment
    split at stepped
    · exact Except.ok.inj stepped ▸ .empty ..
    · exact Except.ok.inj stepped ▸ plain.push (.inl comment)
  split at stepped
  · obtain ⟨flushed, -, rfl⟩ := map_eq_ok_iff.1 stepped
    constructor <;> (intro part; cases part)
  split at stepped
  · obtain ⟨_, -, rfl⟩ := map_eq_ok_iff.1 stepped
    exact .empty ..
  split at stepped
  · obtain ⟨_, -, rfl⟩ := map_eq_ok_iff.1 stepped
    exact .empty ..
  split at stepped
  · exact plain.flush stepped
  split at stepped
  · exact Except.ok.inj stepped ▸ plain
  · exact Except.ok.inj stepped ▸ plain.push (.inr (by simp_all))

/-- A line break makes pieces of all that is in the buffer. -/
theorem step_newline (plain : pass.Plain) :
    (pass.step '\n').map (fun last => (last.pieces, last.buffer)) =
      (pass.complete []).map (·, []) := by
  by_cases comment : pass.part = .comment
  · rw [step, if_pos comment, if_pos rfl, complete, remaining, if_pos comment, comment,
      List.append_nil]
    rfl
  · have stepped : pass.step '\n' = pass.flush := by
      simp [step, comment]
    have nothing : code [] = [] ∧ commentPieces [] = [] := ⟨rfl, rfl⟩
    rw [stepped, flush_eq plain comment, complete, remaining, if_neg comment, nothing.1, nothing.2,
      List.append_nil]
    cases pass.part.pieces pass.buffer with
    | error fault => rfl
    | ok found =>
      show Except.ok (pass.pieces ++ found, ([] : List Char)) = .ok (pass.pieces ++ (found ++ []), [])
      rw [List.append_nil]

theorem foldlM_step (plain : pass.Plain) {cs : List Char} (single : '\n' ∉ cs) :
    ((cs ++ ['\n']).foldlM step pass).map (fun last => (last.pieces, last.buffer)) =
      (pass.complete cs).map (·, []) := by
  induction cs generalizing pass with
  | nil =>
    rw [List.nil_append, List.foldlM_cons, ← step_newline plain]
    cases pass.step '\n' <;> rfl
  | cons c rest ih =>
    have inside : c ≠ '\n' := fun same => single (same ▸ List.mem_cons_self ..)
    have single : '\n' ∉ rest := fun listed => single (List.mem_cons_of_mem _ listed)
    rw [← step_complete plain inside, List.cons_append, List.foldlM_cons]
    cases stepped : pass.step c with
    | error fault => rfl
    | ok next => exact ih (plain.step stepped) single

/-- A pass over a line finds the pieces of the line or fails as they do, and it leaves nothing in
its buffer. -/
theorem read_eq {cs : List Char} (single : '\n' ∉ cs) :
    (read cs).map (fun last => (last.pieces, last.buffer)) = (linePieces cs).map (·, []) := by
  rw [read, foldlM_step (.empty ..) single, complete, remaining, if_neg (by decide), linePieces]
  simp only [LinePart.pieces, List.nil_append]
  cases codePieces (code cs) <;> rfl

end LinePass

end StockFlow.Spec
