import Mathlib.Data.List.Basic
import StockFlow.Number.Reading
import StockFlow.Proofs.Spec.Shape
import StockFlow.Report.Json

/-!
# The grammar of JSON

Which texts are JSON, and what value such a text spells (`Json.Spells`). The rules say what can be
read at the front of a text and what follows it; white space may stand before every mark, value and
name and behind the last one. A number without a point and an exponent is a whole number, any other
one the double that it denotes. Where escapes give half of a pair of surrogates alone there is no
character, and so no text.

A number goes as far as its characters do, so each rule leaves nothing to choose, and no text spells
two values (`Json.Spells.unique`).
-/

namespace StockFlow.Report.Json

open StockFlow.Spec (AreDigits)

/-- White space between the parts of a text. -/
def isSpace (c : Char) : Bool :=
  c = ' ' || c = '\t' || c = '\n' || c = '\r'

/-- A text without the white space in front. -/
def skip (cs : List Char) : List Char :=
  cs.dropWhile isSpace

/-! ## Numbers -/

/-- A character that numbers are made of. -/
def isNumberChar (c : Char) : Bool :=
  c.isDigit || c = '-' || c = '+' || c = '.' || c = 'e' || c = 'E'

/-- Zero, or digits that do not begin with a zero. -/
structure IsWhole (cs : List Char) : Prop where
  digits : AreDigits cs
  leading : cs.head? = some '0' → cs = ['0']

/-- Nothing, or a point and digits. -/
inductive IsFraction : List Char → Prop where
  | absent : IsFraction []
  | places {cs : List Char} : AreDigits cs → IsFraction ('.' :: cs)

/-- The mark in front of an exponent. -/
def IsExponentMark (c : Char) : Prop :=
  c = 'e' ∨ c = 'E'

/-- Nothing, or a mark and digits that may have a sign. -/
inductive IsExponent : List Char → Prop where
  | absent : IsExponent []
  | bare {mark : Char} {cs : List Char} : IsExponentMark mark → AreDigits cs →
      IsExponent (mark :: cs)
  | signed {mark sign : Char} {cs : List Char} : IsExponentMark mark → sign = '+' ∨ sign = '-' →
      AreDigits cs → IsExponent (mark :: sign :: cs)

/-- A number with a point, an exponent or both, but without a sign. -/
inductive IsReal : List Char → Prop where
  | mk {digits fraction exponent : List Char} : IsWhole digits → IsFraction fraction →
      IsExponent exponent → fraction ++ exponent ≠ [] → IsReal (digits ++ (fraction ++ exponent))

/-- A number behind a minus, or by itself. -/
def withSign (negative : Bool) (cs : List Char) : List Char :=
  if negative then '-' :: cs else cs

/-- The value of a number: whole if there is neither a point nor an exponent. -/
inductive SpellsNumber : List Char → Json → Prop where
  | whole {cs : List Char} (negative : Bool) : IsWhole cs →
      SpellsNumber (withSign negative cs)
        (.whole (if negative then -(Text.digitsValue cs : Int) else Text.digitsValue cs))
  | real {cs : List Char} {x : Float} (negative : Bool) : IsReal cs →
      Number.ofText? (.ofList (withSign negative cs)) = some x →
      SpellsNumber (withSign negative cs) (.real x)

/-! ## Texts -/

/-- The character that a letter or mark stands for behind a backslash. -/
def shortEscape? : Char → Option Char
  | '"' => some '"'
  | '\\' => some '\\'
  | '/' => some '/'
  | 'b' => some '\x08'
  | 'f' => some '\x0c'
  | 'n' => some '\n'
  | 'r' => some '\r'
  | 't' => some '\t'
  | _ => none

/-- The value of a hexadecimal digit, in either case. -/
def hexValue? (c : Char) : Option Nat :=
  if '0' ≤ c && c ≤ '9' then some (c.toNat - 48)
  else if 'a' ≤ c && c ≤ 'f' then some (c.toNat - 87)
  else if 'A' ≤ c && c ≤ 'F' then some (c.toNat - 55)
  else none

/-- The number that four hexadecimal digits make up at the front of a text, and what follows. -/
def unit? : List Char → Option (Nat × List Char)
  | a :: b :: c :: d :: rest => do
    let high := (← hexValue? a) * 16 + (← hexValue? b)
    let low := (← hexValue? c) * 16 + (← hexValue? d)
    return (high * 256 + low, rest)
  | _ => none

/-- A character between double quotes, and what follows it: by itself, escaped by a letter or mark,
or by its number in one unit or two. -/
inductive ReadsChar (c : Char) : List Char → List Char → Prop where
  | plain {rest : List Char} : 32 ≤ c.toNat → c ≠ '"' → c ≠ '\\' → ReadsChar c (c :: rest) rest
  | short {mark : Char} {rest : List Char} : shortEscape? mark = some c →
      ReadsChar c ('\\' :: mark :: rest) rest
  | unit {cs rest : List Char} : unit? cs = some (c.toNat, rest) →
      ReadsChar c ('\\' :: 'u' :: cs) rest
  | pair {cs more rest : List Char} {high low : Nat} :
      unit? cs = some (0xD800 + high, '\\' :: 'u' :: more) → unit? more = some (0xDC00 + low, rest) →
      high < 1024 → low < 1024 → c.toNat = 0x10000 + high * 1024 + low →
      ReadsChar c ('\\' :: 'u' :: cs) rest

/-- The characters up to a double quote, and what follows that. -/
inductive ReadsChars : List Char → List Char → List Char → Prop where
  | nil {rest : List Char} : ReadsChars [] ('"' :: rest) rest
  | cons {c : Char} {s cs more rest : List Char} : ReadsChar c cs more → ReadsChars s more rest →
      ReadsChars (c :: s) cs rest

/-! ## Values -/

/-- What is read in one go: a value or a field of a record, or the items of a list or the fields of
a record up to its end, all of them or those behind a first one. -/
inductive Part where
  | value (v : Json)
  | field (name : String) (v : Json)
  | items (vs : List Json)
  | moreItems (vs : List Json)
  | fields (entries : List (String × Json))
  | moreFields (entries : List (String × Json))

/-- A part at the front of a text that begins with it, and what follows. -/
inductive Reads : Part → List Char → List Char → Prop where
  | null {rest : List Char} : Reads (.value .null) ('n' :: 'u' :: 'l' :: 'l' :: rest) rest
  | yes {rest : List Char} : Reads (.value (.truth true)) ('t' :: 'r' :: 'u' :: 'e' :: rest) rest
  | no {rest : List Char} :
      Reads (.value (.truth false)) ('f' :: 'a' :: 'l' :: 's' :: 'e' :: rest) rest
  | number {cs : List Char} {v : Json} : SpellsNumber (cs.takeWhile isNumberChar) v →
      Reads (.value v) cs (cs.dropWhile isNumberChar)
  | text {s : String} {cs rest : List Char} : ReadsChars s.toList cs rest →
      Reads (.value (.text s)) ('"' :: cs) rest
  | list {vs : List Json} {cs rest : List Char} : Reads (.items vs) (skip cs) rest →
      Reads (.value (.list vs)) ('[' :: cs) rest
  | record {entries : List (String × Json)} {cs rest : List Char} :
      Reads (.fields entries) (skip cs) rest → Reads (.value (.record entries)) ('\x7b' :: cs) rest
  | noItems {rest : List Char} : Reads (.items []) (']' :: rest) rest
  | firstItem {v : Json} {vs : List Json} {cs more rest : List Char} : Reads (.value v) cs more →
      Reads (.moreItems vs) (skip more) rest → Reads (.items (v :: vs)) cs rest
  | endItems {rest : List Char} : Reads (.moreItems []) (']' :: rest) rest
  | nextItem {v : Json} {vs : List Json} {cs more rest : List Char} :
      Reads (.value v) (skip cs) more → Reads (.moreItems vs) (skip more) rest →
      Reads (.moreItems (v :: vs)) (',' :: cs) rest
  | field {name : String} {v : Json} {cs more value rest : List Char} :
      ReadsChars name.toList cs more → skip more = ':' :: value → Reads (.value v) (skip value) rest →
      Reads (.field name v) ('"' :: cs) rest
  | noFields {rest : List Char} : Reads (.fields []) ('\x7d' :: rest) rest
  | firstField {name : String} {v : Json} {entries : List (String × Json)}
      {cs more rest : List Char} : Reads (.field name v) cs more →
      Reads (.moreFields entries) (skip more) rest → Reads (.fields ((name, v) :: entries)) cs rest
  | endFields {rest : List Char} : Reads (.moreFields []) ('\x7d' :: rest) rest
  | nextField {name : String} {v : Json} {entries : List (String × Json)}
      {cs more rest : List Char} : Reads (.field name v) (skip cs) more →
      Reads (.moreFields entries) (skip more) rest →
      Reads (.moreFields ((name, v) :: entries)) (',' :: cs) rest

/-- A text is JSON and spells a value: the value and nothing else, but for white space. -/
def Spells (text : String) (v : Json) : Prop :=
  ∃ rest, Reads (.value v) (skip text.toList) rest ∧ skip rest = []

/-! ## Reading is unique -/

theorem mem_withSign {negative : Bool} {cs : List Char} {c : Char} (listed : c ∈ withSign negative cs) :
    c = '-' ∨ c ∈ cs := by
  cases negative with
  | true => exact List.mem_cons.1 listed
  | false => exact .inr listed

theorem subset_withSign (negative : Bool) (cs : List Char) : cs ⊆ withSign negative cs := by
  cases negative with
  | true => exact List.subset_cons_self ..
  | false => exact List.Subset.refl cs

theorem withSign_inj {negative negative' : Bool} {cs cs' : List Char} (digits : AreDigits cs)
    (digits' : AreDigits cs') (same : withSign negative cs = withSign negative' cs') :
    negative = negative' ∧ cs = cs' := by
  have unsigned : ∀ more, ¬ AreDigits ('-' :: more) := fun more digits =>
    absurd (digits.2 '-' (List.mem_cons_self ..)) (by decide)
  match negative, negative' with
  | true, true => exact ⟨rfl, (List.cons.inj same).2⟩
  | false, false => exact ⟨rfl, same⟩
  | true, false =>
    obtain rfl : '-' :: cs = cs' := same
    exact absurd digits' (unsigned cs)
  | false, true =>
    obtain rfl : cs = '-' :: cs' := same
    exact absurd digits (unsigned cs')

theorem IsReal.ne_nil {cs : List Char} (real : IsReal cs) : cs ≠ [] := by
  obtain ⟨whole, -, -, -⟩ := real
  exact List.append_ne_nil_of_left_ne_nil whole.digits.1 _

theorem SpellsNumber.ne_nil {cs : List Char} {v : Json} (spells : SpellsNumber cs v) : cs ≠ [] := by
  have filled : ∀ negative cs, cs ≠ [] → withSign negative cs ≠ [] := by
    intro negative cs filled empty
    exact filled (List.subset_nil.1 (empty ▸ subset_withSign negative cs))
  cases spells with
  | whole negative whole => exact filled negative _ whole.digits.1
  | real negative real _ => exact filled negative _ real.ne_nil

theorem IsExponentMark.not_digit {c : Char} (mark : IsExponentMark c) :
    c ≠ '-' ∧ c.isDigit = false := by
  rcases mark with rfl | rfl <;> exact ⟨by decide, rfl⟩

/-- A point or the mark of an exponent tells that a number is not whole. -/
theorem IsReal.exists_mark {cs : List Char} (real : IsReal cs) :
    ∃ c ∈ cs, c ≠ '-' ∧ c.isDigit = false := by
  obtain ⟨-, fraction, exponent, filled⟩ := real
  cases fraction with
  | places _ =>
    exact ⟨'.', List.mem_append_right _ (List.mem_cons_self ..), by decide, rfl⟩
  | absent =>
    cases exponent with
    | absent => exact absurd rfl filled
    | bare mark _ | signed mark _ _ =>
      exact ⟨_, List.mem_append_right _ (List.mem_cons_self ..), mark.not_digit⟩

theorem IsWhole.not_isReal {digits cs : List Char} {negative negative' : Bool}
    (whole : IsWhole digits) (real : IsReal cs) :
    withSign negative digits ≠ withSign negative' cs := by
  intro same
  obtain ⟨c, listed, unsigned, other⟩ := real.exists_mark
  have inside : c ∈ withSign negative digits := same ▸ subset_withSign negative' cs listed
  rcases mem_withSign inside with minus | digit
  · exact unsigned minus
  · exact absurd (whole.digits.2 c digit) (by simp [other])

theorem SpellsNumber.unique {cs : List Char} {v v' : Json} (spells : SpellsNumber cs v)
    (spells' : SpellsNumber cs v') : v' = v := by
  generalize same : cs = cs' at spells'
  cases spells with
  | whole negative whole =>
    cases spells' with
    | whole negative' whole' =>
      obtain ⟨rfl, rfl⟩ := withSign_inj whole.digits whole'.digits same
      rfl
    | real negative' real _ => exact absurd same (whole.not_isReal real)
  | real negative real read =>
    cases spells' with
    | whole negative' whole => exact absurd same.symm (whole.not_isReal real)
    | real negative' _ read' =>
      rw [← same, read] at read'
      rw [Option.some.inj read']

theorem toNat_valid (c : Char) : c.toNat < 0xD800 ∨ 0xDFFF < c.toNat ∧ c.toNat < 0x110000 :=
  c.valid

/-- No character has the number of a surrogate. -/
theorem toNat_ne_surrogate (c : Char) {n : Nat} (small : n < 1024) : c.toNat ≠ 0xD800 + n := by
  have valid := toNat_valid c
  omega

theorem ReadsChar.unique {c c' : Char} {cs rest rest' : List Char} (reads : ReadsChar c cs rest)
    (reads' : ReadsChar c' cs rest') : c' = c ∧ rest' = rest := by
  cases reads with
  | plain _ _ solid =>
    cases reads' with
    | plain _ _ _ => exact ⟨rfl, rfl⟩
    | short _ | unit _ | pair _ _ _ _ _ => exact absurd rfl solid
  | short escape =>
    cases reads' with
    | plain _ _ solid => exact absurd rfl solid
    | short escape' => exact ⟨Option.some.inj (escape'.symm.trans escape), rfl⟩
    | unit _ | pair _ _ _ _ _ => cases escape
  | unit number =>
    cases reads' with
    | plain _ _ solid => exact absurd rfl solid
    | short escape => cases escape
    | unit number' =>
      obtain ⟨same, rfl⟩ := Prod.mk.inj (Option.some.inj (number'.symm.trans number))
      exact ⟨Char.toNat_inj.1 same, rfl⟩
    | pair first _ small _ _ =>
      have same := (Prod.mk.inj (Option.some.inj (number.symm.trans first))).1
      exact absurd same (toNat_ne_surrogate c small)
  | pair first second small small' value =>
    cases reads' with
    | plain _ _ solid => exact absurd rfl solid
    | short escape => cases escape
    | unit number =>
      have same := (Prod.mk.inj (Option.some.inj (number.symm.trans first))).1
      exact absurd same (toNat_ne_surrogate c' small)
    | pair first' second' _ _ value' =>
      obtain ⟨high, more⟩ := Prod.mk.inj (Option.some.inj (first'.symm.trans first))
      obtain rfl := (List.cons.inj (List.cons.inj more).2).2
      obtain ⟨low, rfl⟩ := Prod.mk.inj (Option.some.inj (second'.symm.trans second))
      exact ⟨Char.toNat_inj.1 (by omega), rfl⟩

/-- A double quote is no character of a text, but its end. -/
theorem not_readsChar_quote {c : Char} {cs rest : List Char} : ¬ ReadsChar c ('"' :: cs) rest := by
  generalize same : '"' :: cs = input
  rintro (⟨_, other, _⟩ | _ | _ | _)
  · exact other (List.cons.inj same).1.symm
  all_goals exact absurd (List.cons.inj same).1 (by decide)

theorem ReadsChars.unique {s s' cs rest rest' : List Char} (reads : ReadsChars s cs rest)
    (reads' : ReadsChars s' cs rest') : s' = s ∧ rest' = rest := by
  induction reads generalizing s' with
  | nil =>
    cases reads' with
    | nil => exact ⟨rfl, rfl⟩
    | cons first _ => exact absurd first not_readsChar_quote
  | cons first _ ih =>
    cases reads' with
    | nil => exact absurd first not_readsChar_quote
    | cons first' later' =>
      obtain ⟨rfl, rfl⟩ := first.unique first'
      obtain ⟨rfl, rfl⟩ := ih later'
      exact ⟨rfl, rfl⟩

/-! ### Values by their first characters -/

namespace Reads

variable {v : Json} {cs rest : List Char}

/-- A number does not begin with a mark that no number holds. -/
theorem not_spellsNumber {c : Char} (other : isNumberChar c = false) :
    ¬ SpellsNumber ((c :: cs).takeWhile isNumberChar) v := by
  intro spells
  refine spells.ne_nil (List.takeWhile_cons_of_neg ?_)
  rw [other]
  exact Bool.false_ne_true

/-- No value begins with white space or with the end of a list. -/
theorem exists_head (reads : Reads (.value v) cs rest) :
    ∃ c more, cs = c :: more ∧ isSpace c = false ∧ c ≠ ']' := by
  cases reads with
  | number spells =>
    cases cs with
    | nil => exact absurd rfl spells.ne_nil
    | cons c more =>
      have letter : isNumberChar c = true := by
        by_contra other
        exact spells.ne_nil (List.takeWhile_cons_of_neg other)
      refine ⟨c, more, rfl, ?_, ?_⟩
      · by_contra space
        simp only [isSpace, Bool.not_eq_false, Bool.or_eq_true, decide_eq_true_eq] at space
        rcases space with ((rfl | rfl) | rfl) | rfl <;> cases letter
      · rintro rfl
        cases letter
  | _ => exact ⟨_, _, rfl, rfl, by decide⟩

theorem not_reads_bracket : ¬ Reads (.value v) (']' :: cs) rest := by
  intro reads
  obtain ⟨c, more, same, -, other⟩ := reads.exists_head
  exact other (List.cons.inj same).1.symm

theorem not_reads_brace {name : String} : ¬ Reads (.field name v) ('\x7d' :: cs) rest := by
  intro reads
  cases reads

end Reads

/-- Whatever else of its kind is read at the front of the text is the part, and the same follows. -/
def Part.IsAlone : Part → List Char → List Char → Prop
  | .value v, cs, rest => ∀ v' rest', Reads (.value v') cs rest' → v' = v ∧ rest' = rest
  | .field name v, cs, rest => ∀ name' v' rest', Reads (.field name' v') cs rest' →
      name' = name ∧ v' = v ∧ rest' = rest
  | .items vs, cs, rest => ∀ vs' rest', Reads (.items vs') cs rest' → vs' = vs ∧ rest' = rest
  | .moreItems vs, cs, rest => ∀ vs' rest', Reads (.moreItems vs') cs rest' → vs' = vs ∧ rest' = rest
  | .fields entries, cs, rest => ∀ entries' rest', Reads (.fields entries') cs rest' →
      entries' = entries ∧ rest' = rest
  | .moreFields entries, cs, rest => ∀ entries' rest', Reads (.moreFields entries') cs rest' →
      entries' = entries ∧ rest' = rest

theorem Reads.isAlone {part : Part} {cs rest : List Char} (reads : Reads part cs rest) :
    part.IsAlone cs rest := by
  induction reads with
  | null | yes | no =>
    intro v' rest' other
    cases other with
    | number spells => exact absurd spells (not_spellsNumber rfl)
    | _ => exact ⟨rfl, rfl⟩
  | number spells =>
    intro v' rest' other
    cases other with
    | number spells' => exact ⟨spells.unique spells', rfl⟩
    | _ => exact absurd spells (not_spellsNumber rfl)
  | text chars =>
    intro v' rest' other
    cases other with
    | text chars' =>
      obtain ⟨same, rfl⟩ := chars.unique chars'
      rw [String.toList_injective same]
      exact ⟨rfl, rfl⟩
    | number spells => exact absurd spells (not_spellsNumber rfl)
  | list _ ih =>
    intro v' rest' other
    cases other with
    | list inner =>
      obtain ⟨rfl, rfl⟩ := ih _ _ inner
      exact ⟨rfl, rfl⟩
    | number spells => exact absurd spells (not_spellsNumber rfl)
  | record _ ih =>
    intro v' rest' other
    cases other with
    | record inner =>
      obtain ⟨rfl, rfl⟩ := ih _ _ inner
      exact ⟨rfl, rfl⟩
    | number spells => exact absurd spells (not_spellsNumber rfl)
  | noItems =>
    intro vs' rest' other
    cases other with
    | noItems => exact ⟨rfl, rfl⟩
    | firstItem first _ => exact absurd first not_reads_bracket
  | firstItem first _ ih ih' =>
    intro vs' rest' other
    cases other with
    | noItems => exact absurd first not_reads_bracket
    | firstItem first' later' =>
      obtain ⟨rfl, rfl⟩ := ih _ _ first'
      obtain ⟨rfl, rfl⟩ := ih' _ _ later'
      exact ⟨rfl, rfl⟩
  | endItems =>
    intro vs' rest' other
    cases other
    exact ⟨rfl, rfl⟩
  | nextItem _ _ ih ih' =>
    intro vs' rest' other
    cases other with
    | nextItem first' later' =>
      obtain ⟨rfl, rfl⟩ := ih _ _ first'
      obtain ⟨rfl, rfl⟩ := ih' _ _ later'
      exact ⟨rfl, rfl⟩
  | field chars colon _ ih =>
    intro name' v' rest' other
    cases other with
    | field chars' colon' inner' =>
      obtain ⟨same, rfl⟩ := chars.unique chars'
      obtain rfl := (List.cons.inj (colon'.symm.trans colon)).2
      obtain ⟨rfl, rfl⟩ := ih _ _ inner'
      exact ⟨String.toList_injective same, rfl, rfl⟩
  | noFields =>
    intro entries' rest' other
    cases other with
    | noFields => exact ⟨rfl, rfl⟩
    | firstField first _ => exact absurd first not_reads_brace
  | firstField first _ ih ih' =>
    intro entries' rest' other
    cases other with
    | noFields => exact absurd first not_reads_brace
    | firstField first' later' =>
      obtain ⟨rfl, rfl, rfl⟩ := ih _ _ _ first'
      obtain ⟨rfl, rfl⟩ := ih' _ _ later'
      exact ⟨rfl, rfl⟩
  | endFields =>
    intro entries' rest' other
    cases other
    exact ⟨rfl, rfl⟩
  | nextField _ _ ih ih' =>
    intro entries' rest' other
    cases other with
    | nextField first' later' =>
      obtain ⟨rfl, rfl, rfl⟩ := ih _ _ _ first'
      obtain ⟨rfl, rfl⟩ := ih' _ _ later'
      exact ⟨rfl, rfl⟩

/-- No text spells two values. -/
theorem Spells.unique {text : String} {v v' : Json} (spells : Spells text v)
    (spells' : Spells text v') : v' = v := by
  obtain ⟨rest, reads, -⟩ := spells
  obtain ⟨rest', reads', -⟩ := spells'
  exact (reads.isAlone v' rest' reads').1

end StockFlow.Report.Json
