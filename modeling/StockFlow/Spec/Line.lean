import StockFlow.Spec.Piece
import StockFlow.Text.Split

/-!
# Lines of a spec

A line is `Stock > Stock @ Flow # comment`, with any part left out from the end and any number of
stocks in front. Its code is what stands before the comment, without blanks; blanks carry no
meaning. A spec is scanned as a whole before anything is built from it.
-/

namespace StockFlow.Spec

open StockFlow.Text

/-- A line with at least one piece. -/
structure Line where
  /-- The number of the line, from one. -/
  number : Nat
  pieces : List Piece
  /-- The line as it stands in the spec. -/
  text : String
  deriving DecidableEq, Repr

/-- The code of a line: what stands before the comment, without blanks. -/
def code (cs : List Char) : List Char :=
  (cs.takeWhile (· ≠ '#')).filter (!isBlank ·)

/-- The comment of a line, which reaches to its end. -/
def commentPieces (cs : List Char) : List Piece :=
  match cs.dropWhile (· ≠ '#') with
  | [] => []
  | _ :: text => [.comment (.ofList text)]

/-- The stocks before a flow mark or the end of the code; only there the last may be missing. -/
def stockPieces (marked : Bool) : List (List Char) → Except Fault (List Piece)
  | [] => .ok []
  | [last] =>
    if marked then (StockPiece.ofChars last).map ([.stock ·, .delimiter])
    else if last.isEmpty then .ok []
    else (StockPiece.ofChars last).map ([.stock ·])
  | cs :: rest => do
    let stock ← StockPiece.ofChars cs
    return .stock stock :: .direction :: (← stockPieces marked rest)

/-- The flow after the mark; arrows in it carry no meaning. -/
def flowPieces (cs : List Char) : Except Fault (List Piece) :=
  let cs := cs.filter (· ≠ '>')
  if cs.isEmpty then .ok [] else (FlowPiece.ofChars cs).map ([.flow ·])

/-- The pieces of the code of a line. -/
def codePieces (cs : List Char) : Except Fault (List Piece) := do
  let rest := cs.dropWhile (· ≠ '@')
  let stocks ← stockPieces (!rest.isEmpty) ((cs.takeWhile (· ≠ '@')).splitOn '>')
  return stocks ++ (← flowPieces rest.tail)

/-- The pieces of a line. -/
def linePieces (cs : List Char) : Except Fault (List Piece) := do
  return (← codePieces (code cs)) ++ commentPieces cs

/-- Scans one line; a fault gets the line as its place. -/
def Line.ofText (number : Nat) (text : String) : Except Fault Line :=
  match linePieces text.toList with
  | .ok found => .ok ⟨number, found, text⟩
  | .error fault => .error (fault.atLine ⟨text, number⟩)

/-- The place of a line. -/
def Line.place (line : Line) : Place :=
  ⟨line.text, line.number⟩

theorem Line.ofText_eq_ok_iff {number : Nat} {text : String} {line : Line} :
    Line.ofText number text = .ok line ↔
      ∃ pieces, linePieces text.toList = .ok pieces ∧ line = ⟨number, pieces, text⟩ := by
  unfold Line.ofText
  cases linePieces text.toList with
  | error fault => simp
  | ok found => simp [eq_comm]

theorem Line.ofText_eq_error_iff {number : Nat} {text : String} {fault : Fault} :
    Line.ofText number text = .error fault ↔
      ∃ cause, linePieces text.toList = .error cause ∧ fault = cause.atLine ⟨text, number⟩ := by
  unfold Line.ofText
  cases linePieces text.toList with
  | error cause => simp [eq_comm]
  | ok found => simp

/-- Scans the lines of a spec and keeps those that hold a piece; the first fault ends the scan. -/
def scan (s : String) : Except Fault (List Line) := do
  let lines ← ((split '\n' s).zipIdx 1).mapM fun (text, number) => Line.ofText number text
  return lines.filter (!·.pieces.isEmpty)

/-- A line as text. -/
def Line.readable (line : Line) : String :=
  " ".intercalate (line.pieces.map Piece.text)

/-- Lines as text. -/
def readable (lines : List Line) : String :=
  "\n".intercalate (lines.map Line.readable)

end StockFlow.Spec
