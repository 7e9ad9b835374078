import StockFlow.Fault
import StockFlow.Spec.Value

/-!
# Expressions

An expression is a sequence of values, operators and groups in parentheses, not yet known to make
sense as a formula. Scanning cuts a text into items and nests them; it fails only if the
parentheses do not match.
-/

namespace StockFlow.Spec

open StockFlow.Text

/-- A sequence of values, operators and groups, each group again such a sequence. -/
inductive Expression where
  | nil
  | value (v : Value) (rest : Expression)
  | operation (op : Operator) (rest : Expression)
  | group (inner rest : Expression)
  deriving DecidableEq, Repr

namespace Expression

/-- One sequence after the other. -/
def append : Expression → Expression → Expression
  | nil, e => e
  | value v rest, e => value v (rest.append e)
  | operation op rest, e => operation op (rest.append e)
  | group inner rest, e => group inner (rest.append e)

instance : Append Expression :=
  ⟨append⟩

theorem nil_append (e : Expression) : nil ++ e = e :=
  rfl

theorem append_nil (e : Expression) : e ++ nil = e := by
  show e.append nil = e
  induction e <;> simp_all [append]

theorem append_assoc (e f g : Expression) : e ++ f ++ g = e ++ (f ++ g) := by
  show (e.append f).append g = e.append (f.append g)
  induction e <;> simp_all [append]

/-- The members of a sequence as words, a group as one word. -/
def words : Expression → List String
  | nil => []
  | value v rest => v.text :: rest.words
  | operation op rest => op.text :: rest.words
  | group inner rest => ("(" ++ " ".intercalate inner.words ++ ")") :: rest.words

/-- The expression as text, its members parted by spaces. -/
def text (e : Expression) : String :=
  " ".intercalate e.words

end Expression

/-- What a text is cut into before it is nested. -/
inductive Item where
  | value (v : Value)
  | operation (op : Operator)
  | opening
  | closing
  deriving DecidableEq, Repr

namespace Item

/-- The items that a character makes by itself; `none` for a character of a value. -/
def ofMark? (c : Char) : Option (List Item) :=
  if c = '(' then some [opening]
  else if c = ')' then some [closing]
  else if isBlank c then some []
  else (Operator.ofChar? c).map fun op => [operation op]

/-- The value that ends where a run of its characters ends. -/
def ofRun (run : List Char) : List Item :=
  if run.isEmpty then [] else [value (.ofText (.ofList run))]

/-- The items of a text, of which the characters in `run` have been read as part of a value. -/
def scanFrom (run : List Char) : List Char → List Item
  | [] => ofRun run
  | c :: cs =>
    match ofMark? c with
    | some marks => ofRun run ++ marks ++ scanFrom [] cs
    | none => scanFrom (run ++ [c]) cs

/-- The items of a text. -/
def scan (cs : List Char) : List Item :=
  scanFrom [] cs

end Item

/-- The groups open at a point of a text: the sequence being read and those around it. -/
structure Nesting where
  current : Expression
  outer : List Expression
  deriving DecidableEq, Repr

namespace Nesting

/-- Before the first item. -/
def start : Nesting :=
  ⟨.nil, []⟩

/-- Reads one item; fails at a parenthesis that closes no group. -/
def step (nesting : Nesting) (item : Item) : Option Nesting :=
  match item, nesting.outer with
  | .value v, _ => some { nesting with current := nesting.current ++ .value v .nil }
  | .operation op, _ => some { nesting with current := nesting.current ++ .operation op .nil }
  | .opening, outer => some ⟨.nil, nesting.current :: outer⟩
  | .closing, around :: outer => some ⟨around ++ .group nesting.current .nil, outer⟩
  | .closing, [] => none

end Nesting

namespace Expression

/-- The expression that a text spells. -/
def ofText (s : String) : Except Fault Expression :=
  match (Item.scan s.toList).foldlM Nesting.step Nesting.start with
  | none => .error (.invalidFormula s "unmatched closing parenthesis")
  | some ⟨e, []⟩ => .ok e
  | some ⟨_, _ :: _⟩ => .error (.invalidFormula s "unclosed parenthesis")

end Expression

end StockFlow.Spec
