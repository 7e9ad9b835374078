import StockFlow.Text.CaseTables

/-!
# Title case

A text in title case has a title letter at the start of each run of letters and small letters
after it. Names of several words, parted by underscores, are joined that way.
-/

namespace StockFlow.Text

/-- Whether a character lies in one of several stretches. -/
def inRanges (ranges : List (Nat × Nat)) (c : Char) : Bool :=
  ranges.any fun (low, high) => low ≤ c.toNat && c.toNat ≤ high

/-- A letter that has case. -/
def isCased (c : Char) : Bool :=
  inRanges casedRanges c

/-- A character that a word passes over when its case is looked at. -/
def isCaseIgnorable (c : Char) : Bool :=
  inRanges caseIgnorableRanges c

/-- The form of a letter that runs and sequences give; without one the letter stays. -/
def caseForm (runs : List (Nat × Nat × Nat × Int)) (sequences : List (Nat × List Nat)) (c : Char) :
    List Char :=
  let n := c.toNat
  match sequences.find? (·.1 == n) with
  | some (_, letters) => letters.map Char.ofNat
  | none =>
    match runs.find? fun (low, high, step, _) => low ≤ n && n ≤ high && (n - low) % step == 0 with
    | some (_, _, _, offset) => [Char.ofNat (n + offset).toNat]
    | none => [c]

/-- The title form of a letter. -/
def titleForm (c : Char) : List Char :=
  caseForm titleRuns titleSequences c

/-- Whether a letter between `before`, the nearest first, and `after` ends a word. -/
def endsWord (before after : List Char) : Bool :=
  let nextCased (cs : List Char) : Bool :=
    match cs.dropWhile isCaseIgnorable with
    | c :: _ => isCased c
    | [] => false
  nextCased before && !nextCased after

/-- The small form of a letter. Sigma has one of its own at the end of a word. -/
def smallForm (before after : List Char) (c : Char) : List Char :=
  if c = 'Σ' && endsWord before after then ['ς'] else caseForm smallRuns smallSequences c

/-- Title case for the rest of a text, of which `before` has been read, the nearest first. -/
def titledAfter (before : List Char) : List Char → List Char
  | [] => []
  | c :: cs =>
    let inside := before.head?.any isCased
    (if inside then smallForm before cs c else titleForm c) ++ titledAfter (c :: before) cs

/-- A text in title case. -/
def titled (cs : List Char) : List Char :=
  titledAfter [] cs

/-- A name of words parted by underscores, as one word with a title letter for each but the first. -/
def camelCase (s : String) : String :=
  match s.toList.splitOn '_' with
  | [] => ""
  | first :: rest => .ofList (first ++ rest.flatMap titled)

end StockFlow.Text
