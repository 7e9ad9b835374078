import Mathlib
import StockFlow.Proofs.Number.RoundTrip
import StockFlow.Proofs.Report.JsonGrammar
import StockFlow.Proofs.Text.Joining

/-!
# JSON as it is written

The text of a value spells the value, on one line or indented (`Json.spells_write`): names and texts
with all their escapes, whole numbers, and doubles that are finite, for the others have no number in
JSON. Lists and records are read alike, member by member (`Json.Members`). What stands between their
members is white space, commas and the closing mark, which no number runs over.
-/

namespace StockFlow.Report.Json

open StockFlow.Number StockFlow.Text
open StockFlow.Spec (AreDigits)

/-! ## Texts -/

theorem hexValue?_hexDigit {d : ℕ} (small : d < 16) : hexValue? (hexDigit d) = some d := by
  interval_cases d <;> rfl

/-- A unit is read as it is written. -/
theorem unit?_hexDigits {n : ℕ} (small : n < 65536) (rest : List Char) :
    unit? (hexDigits 4 n ++ rest) = some (n, rest) := by
  have digit (k : ℕ) : hexValue? (hexDigit (k % 16)) = some (k % 16) :=
    hexValue?_hexDigit (Nat.mod_lt _ (by decide))
  have value : (n / 16 / 16 / 16 % 16 * 16 + n / 16 / 16 % 16) * 256 +
      (n / 16 % 16 * 16 + n % 16) = n := by omega
  simp only [hexDigits, List.nil_append, List.cons_append, unit?, digit]
  exact congrArg (fun unit => some (unit, rest)) value

theorem readsChar_charEscape (c : Char) (rest : List Char) :
    ReadsChar c (charEscape c ++ rest) rest := by
  have valid := toNat_valid c
  unfold charEscape
  simp only
  split
  · rename_i small
    exact .unit (unit?_hexDigits small rest)
  · rename_i large
    have high : (c.toNat - 0x10000) / 1024 < 1024 := by omega
    have low : (c.toNat - 0x10000) % 1024 < 1024 := by omega
    rw [List.append_assoc]
    refine .pair (unit?_hexDigits (by omega) _) (unit?_hexDigits (by omega) rest) high low ?_
    omega

/-- A character is read as it is written, escaped or not. -/
theorem readsChar_writeChar (c : Char) (rest : List Char) :
    ReadsChar c (writeChar c ++ rest) rest := by
  unfold writeChar
  split
  · rename_i mark
    simp only [Bool.or_eq_true, decide_eq_true_eq] at mark
    rcases mark with rfl | rfl <;> exact .short rfl
  rename_i unmarked
  simp only [Bool.or_eq_true, decide_eq_true_eq, not_or] at unmarked
  split_ifs with newline return_ tab feed back printable
  · exact newline ▸ .short rfl
  · exact return_ ▸ .short rfl
  · exact tab ▸ .short rfl
  · exact feed ▸ .short rfl
  · exact back ▸ .short rfl
  · simp only [Bool.and_eq_true, decide_eq_true_eq] at printable
    exact .plain printable.1 unmarked.1 unmarked.2
  · exact readsChar_charEscape c rest

example : writeChar (.ofNat 0x1F600) =
    ['\\', 'u', 'd', '8', '3', 'd', '\\', 'u', 'd', 'e', '0', '0'] := by
  decide

theorem readsChars_writeText (s rest : List Char) :
    ReadsChars s (s.flatMap writeChar ++ '"' :: rest) rest := by
  induction s with
  | nil => exact .nil
  | cons c more ih =>
    rw [List.flatMap_cons, List.append_assoc]
    exact .cons (readsChar_writeChar c _) ih

theorem toList_writeText (s : String) (rest : List Char) :
    (writeText s).toList ++ rest = '"' :: (s.toList.flatMap writeChar ++ '"' :: rest) := by
  simp [writeText]

/-! ## Numbers -/

theorem isWhole_digitChars (n : ℕ) : IsWhole (digitChars n) where
  digits := areDigits_digitChars n
  leading zero := by rw [head?_digitChars zero]; rfl

theorem isWhole_singleton {c : Char} (digit : c.isDigit = true) : IsWhole [c] where
  digits := ⟨List.cons_ne_nil _ _, List.forall_mem_singleton.2 digit⟩
  leading zero := by rw [Option.some.inj zero]

theorem spellsNumber_whole (n : ℤ) : SpellsNumber (toString n).toList (.whole n) := by
  have written : (toString n).toList = withSign (decide (n < 0)) (digitChars n.natAbs) := by
    rw [toString_whole, String.toList_ofList]
    rfl
  have value : (if decide (n < 0) then -(n.natAbs : ℤ) else n.natAbs) = n := by
    simp only [decide_eq_true_eq]
    split <;> omega
  have spells := SpellsNumber.whole (decide (n < 0)) (isWhole_digitChars n.natAbs)
  rwa [digitsValue_digitChars, value, ← written] at spells

theorem isReal_positional {d : Decimal} (some : 0 < d.digits) : IsReal d.positional := by
  obtain ⟨whole, fraction, written, digits, more, -⟩ := exists_positional d
  have leading : whole.head? = Option.some '0' → whole = ['0'] := by
    intro zero
    obtain ⟨rest, rfl⟩ := List.head?_eq_some_iff.1 zero
    have next := leading_positional some written
    cases rest with
    | nil => rfl
    | cons second _ =>
      -- a point is no digit
      obtain rfl := Option.some.inj next
      exact absurd (digits.2 '.' (List.mem_cons_of_mem _ (List.mem_cons_self ..))) (by decide)
  have point : IsReal (whole ++ ('.' :: fraction ++ [])) :=
    .mk ⟨digits, leading⟩ (.places more) .absent (List.cons_ne_nil _ _)
  rwa [List.append_nil, ← written] at point

theorem isReal_scientific (d : Decimal) : IsReal d.scientific := by
  obtain ⟨filled, digits⟩ := areDigits_digitChars d.digits
  obtain ⟨places, written, each, -⟩ := exists_exponentChars d.power
  have sign : (if d.power < 0 then '-' else '+') = '+' ∨ (if d.power < 0 then '-' else '+') = '-' := by
    split <;> simp
  have exponent : IsExponent ('e' :: exponentChars d.power) := by
    rw [written]
    exact .signed (.inl rfl) sign each
  unfold Decimal.scientific
  generalize digitChars d.digits = chars at *
  match chars with
  | [single] =>
    exact .mk (isWhole_singleton (digits single (List.mem_cons_self ..))) .absent exponent
      (List.cons_ne_nil _ _)
  | first :: second :: rest =>
    have fraction : IsFraction ('.' :: second :: rest) :=
      .places ⟨List.cons_ne_nil _ _, fun c listed => digits c (List.mem_cons_of_mem _ listed)⟩
    exact .mk (isWhole_singleton (digits first (List.mem_cons_self ..))) fraction exponent
      (List.cons_ne_nil _ _)

theorem isReal_chars {d : Decimal} (some : 0 < d.digits) : IsReal d.chars := by
  unfold Decimal.chars
  split
  · exact isReal_positional some
  · exact isReal_scientific d

/-- The text of a finite double is a number that denotes it. -/
theorem spellsNumber_text {x : Float} {negative : Bool} {m : ℕ} {q : ℤ}
    (finite : meaning x = .finite negative m q) :
    SpellsNumber (Number.text x).toList (.real x) := by
  have read := ofText?_text x
  have written : Number.text x = .ofList (withSign negative
      (if m = 0 then ['0', '.', '0'] else (shortest m q).chars)) := by
    rw [Number.text, finite]
    rfl
  rw [written] at read ⊢
  rw [String.toList_ofList]
  refine .real negative ?_ read
  split
  · have zero : AreDigits ['0'] := ⟨List.cons_ne_nil _ _, List.forall_mem_singleton.2 rfl⟩
    exact .mk (isWhole_singleton rfl) (.places zero) .absent (List.cons_ne_nil _ _)
  · rename_i some
    exact isReal_chars (shortest_pos (Nat.pos_of_ne_zero some) (isCanonical_of_ofBits finite))

/-! ## White space -/

/-- A number would end here: what is next is no part of one. -/
def EndsNumber (rest : List Char) : Prop :=
  ∀ c ∈ rest.head?, isNumberChar c = false

theorem skip_append {blanks : List Char} (blank : ∀ c ∈ blanks, isSpace c = true) (cs : List Char) :
    skip (blanks ++ cs) = skip cs :=
  List.dropWhile_append_of_pos blank

theorem skip_space (cs : List Char) : skip (' ' :: cs) = skip cs :=
  List.dropWhile_cons_of_pos rfl

theorem skip_cons {c : Char} (solid : isSpace c = false) (cs : List Char) : skip (c :: cs) = c :: cs :=
  List.dropWhile_cons_of_neg (by simp [solid])

theorem isNumberChar_of_isSpace {c : Char} (space : isSpace c = true) : isNumberChar c = false := by
  simp only [isSpace, Bool.or_eq_true, decide_eq_true_eq] at space
  rcases space with ((rfl | rfl) | rfl) | rfl <;> rfl

theorem endsNumber_append {blanks rest : List Char} (blank : ∀ c ∈ blanks, isSpace c = true)
    (ends : EndsNumber rest) : EndsNumber (blanks ++ rest) := by
  cases blanks with
  | nil => exact ends
  | cons first more =>
    intro c head
    obtain rfl := Option.some.inj head
    exact isNumberChar_of_isSpace (blank first (List.mem_cons_self ..))

theorem endsNumber_cons {c : Char} (other : isNumberChar c = false) (rest : List Char) :
    EndsNumber (c :: rest) := by
  intro first head
  obtain rfl := Option.some.inj head
  exact other

theorem isSpace_of_mem_lineBreak {indent : Option ℕ} {depth : ℕ} {c : Char}
    (listed : c ∈ (lineBreak indent depth).toList) : isSpace c = true := by
  cases indent with
  | none => cases listed
  | some width =>
    rw [lineBreak, String.toList_ofList] at listed
    rcases List.mem_cons.1 listed with rfl | inside
    · rfl
    · rw [List.eq_of_mem_replicate inside]
      rfl

/-- Items are parted by a comma and white space. -/
theorem exists_separator (indent : Option ℕ) (depth : ℕ) : ∃ blanks,
    (separator indent depth).toList = ',' :: blanks ∧ ∀ c ∈ blanks, isSpace c = true := by
  cases indent with
  | none => exact ⟨[' '], by simp [separator], List.forall_mem_singleton.2 rfl⟩
  | some width =>
    refine ⟨(lineBreak (some width) depth).toList, ?_, fun _ => isSpace_of_mem_lineBreak⟩
    rw [separator, String.toList_append]
    rfl

/-! ## Numbers in a text -/

theorem isNumberChar_of_isDigit {c : Char} (digit : c.isDigit = true) : isNumberChar c = true := by
  simp [isNumberChar, digit]

theorem isNumberChar_of_areDigits {cs : List Char} (digits : AreDigits cs) :
    ∀ c ∈ cs, isNumberChar c = true :=
  fun c listed => isNumberChar_of_isDigit (digits.2 c listed)

theorem IsReal.isNumberChar {cs : List Char} (real : IsReal cs) :
    ∀ c ∈ cs, isNumberChar c = true := by
  obtain ⟨whole, fraction, exponent, -⟩ := real
  refine List.forall_mem_append.2 ⟨isNumberChar_of_areDigits whole.digits,
    List.forall_mem_append.2 ⟨?_, ?_⟩⟩
  · cases fraction with
    | absent => exact List.forall_mem_nil _
    | places digits => exact List.forall_mem_cons.2 ⟨rfl, isNumberChar_of_areDigits digits⟩
  · have letter : ∀ c, IsExponentMark c → Json.isNumberChar c = true := by
      rintro c (rfl | rfl) <;> rfl
    cases exponent with
    | absent => exact List.forall_mem_nil _
    | bare mark digits =>
      exact List.forall_mem_cons.2 ⟨letter _ mark, isNumberChar_of_areDigits digits⟩
    | signed mark sign digits =>
      refine List.forall_mem_cons.2 ⟨letter _ mark, List.forall_mem_cons.2
        ⟨?_, isNumberChar_of_areDigits digits⟩⟩
      rcases sign with rfl | rfl <;> rfl

theorem SpellsNumber.isNumberChar {cs : List Char} {v : Json} (spells : SpellsNumber cs v) :
    ∀ c ∈ cs, isNumberChar c = true := by
  have signed : ∀ negative cs, (∀ c ∈ cs, Json.isNumberChar c = true) →
      ∀ c ∈ withSign negative cs, Json.isNumberChar c = true := by
    intro negative cs each c listed
    rcases mem_withSign listed with rfl | inside
    · rfl
    · exact each c inside
  cases spells with
  | whole negative whole => exact signed negative _ (isNumberChar_of_areDigits whole.digits)
  | real negative real _ => exact signed negative _ real.isNumberChar

/-- A number is read up to its end. -/
theorem reads_number {cs rest : List Char} {v : Json} (spells : SpellsNumber cs v)
    (ends : EndsNumber rest) : Reads (.value v) (cs ++ rest) rest := by
  have none : rest.takeWhile isNumberChar = [] ∧ rest.dropWhile isNumberChar = rest := by
    cases rest with
    | nil => exact ⟨rfl, rfl⟩
    | cons c more =>
      have other : ¬ isNumberChar c = true := by simp [ends c rfl]
      exact ⟨List.takeWhile_cons_of_neg other, List.dropWhile_cons_of_neg other⟩
  have spelled : (cs ++ rest).takeWhile isNumberChar = cs := by
    rw [List.takeWhile_append_of_pos spells.isNumberChar, none.1, List.append_nil]
  have left : (cs ++ rest).dropWhile isNumberChar = rest := by
    rw [List.dropWhile_append_of_pos spells.isNumberChar, none.2]
  have reads : Reads (.value v) (cs ++ rest) ((cs ++ rest).dropWhile isNumberChar) :=
    .number (spelled.symm ▸ spells)
  rwa [left] at reads

/-! ## Lists and records -/

/-- How the members of a list or a record are read, one by one up to its end. -/
structure Members {α : Type} (one : α → Part) (all more : List α → Part) (closing : Char) :
    Prop where
  none (rest : List Char) : Reads (all []) (closing :: rest) rest
  first {a : α} {as : List α} {cs behind rest : List Char} : Reads (one a) cs behind →
    Reads (more as) (skip behind) rest → Reads (all (a :: as)) cs rest
  ended (rest : List Char) : Reads (more []) (closing :: rest) rest
  next {a : α} {as : List α} {cs behind rest : List Char} : Reads (one a) (skip cs) behind →
    Reads (more as) (skip behind) rest → Reads (more (a :: as)) (',' :: cs) rest
  solid {a : α} {cs rest : List Char} : Reads (one a) cs rest → skip cs = cs
  closes : isSpace closing = false ∧ isNumberChar closing = false

theorem skip_of_reads {v : Json} {cs rest : List Char} (reads : Reads (.value v) cs rest) :
    skip cs = cs := by
  obtain ⟨c, more, rfl, solid, -⟩ := reads.exists_head
  exact skip_cons solid more

theorem members_list : Members .value .items .moreItems ']' where
  none _ := .noItems
  first := .firstItem
  ended _ := .endItems
  next := .nextItem
  solid := skip_of_reads
  closes := ⟨rfl, rfl⟩

theorem members_record :
    Members (fun entry : String × Json => .field entry.1 entry.2) .fields .moreFields '\x7d' where
  none _ := .noFields
  first := .firstField
  ended _ := .endFields
  next := .nextField
  solid reads := by
    cases reads
    exact skip_cons rfl _
  closes := ⟨rfl, rfl⟩

/-- The members behind the first one, each behind a separator, and what ends them. -/
def later (indent : Option ℕ) (depth : ℕ) (texts : List String) (ending : List Char) : List Char :=
  texts.flatMap (fun text => (separator indent (depth + 1)).toList ++ text.toList) ++
    ((lineBreak indent depth).toList ++ ending)

/-- All members of a list or a record, and what ends them. -/
def inside (indent : Option ℕ) (depth : ℕ) : List String → List Char → List Char
  | [], ending => ending
  | first :: others, ending =>
    (lineBreak indent (depth + 1)).toList ++ (first.toList ++ later indent depth others ending)

theorem toList_enclose (indent : Option ℕ) (depth : ℕ) (opening closing : String)
    (texts : List String) (rest : List Char) :
    (enclose indent depth opening closing texts).toList ++ rest =
      opening.toList ++ inside indent depth texts (closing.toList ++ rest) := by
  cases texts with
  | nil =>
    show (opening ++ closing).toList ++ rest = opening.toList ++ (closing.toList ++ rest)
    rw [String.toList_append, List.append_assoc]
  | cons text texts =>
    rw [enclose, if_neg (by simp)]
    simp only [String.toList_append, String.toList_intercalate, List.map_cons, intercalate_cons,
      List.flatMap_map, inside, later, List.append_assoc]

namespace Members

variable {α : Type} {one : α → Part} {all more : List α → Part} {closing : Char}

/-- The text of a member is read, whatever parts it from what follows. -/
def IsRead (one : α → Part) (write : α → String) (a : α) : Prop :=
  ∀ rest, EndsNumber rest → Reads (one a) ((write a).toList ++ rest) rest

theorem endsNumber_later (members : Members one all more closing) (indent : Option ℕ) (depth : ℕ)
    (texts : List String) (rest : List Char) :
    EndsNumber (later indent depth texts (closing :: rest)) := by
  cases texts with
  | nil =>
    show EndsNumber ((lineBreak indent depth).toList ++ closing :: rest)
    exact endsNumber_append (fun _ => isSpace_of_mem_lineBreak) (endsNumber_cons members.closes.2 rest)
  | cons text texts =>
    obtain ⟨blanks, comma, -⟩ := exists_separator indent (depth + 1)
    rw [later, List.flatMap_cons, comma]
    exact endsNumber_cons rfl _

theorem reads_later (members : Members one all more closing) {write : α → String}
    (indent : Option ℕ) (depth : ℕ) {as : List α} (each : ∀ a ∈ as, IsRead one write a)
    (rest : List Char) :
    Reads (more as) (skip (later indent depth (as.map write) (closing :: rest))) rest := by
  induction as with
  | nil =>
    show Reads (more []) (skip ((lineBreak indent depth).toList ++ closing :: rest)) rest
    rw [skip_append fun _ => isSpace_of_mem_lineBreak, skip_cons members.closes.1]
    exact members.ended rest
  | cons a as ih =>
    obtain ⟨first, others⟩ := List.forall_mem_cons.1 each
    obtain ⟨blanks, comma, blank⟩ := exists_separator indent (depth + 1)
    have written : later indent depth ((a :: as).map write) (closing :: rest) =
        ',' :: (blanks ++ ((write a).toList ++
          later indent depth (as.map write) (closing :: rest))) := by
      simp only [later, List.map_cons, List.flatMap_cons, comma, List.cons_append, List.append_assoc]
    have reads := first _ (members.endsNumber_later indent depth (as.map write) rest)
    rw [written, skip_cons rfl]
    refine members.next ?_ (ih others)
    rwa [skip_append blank, members.solid reads]

theorem reads_inside (members : Members one all more closing) {write : α → String}
    (indent : Option ℕ) (depth : ℕ) {as : List α} (each : ∀ a ∈ as, IsRead one write a)
    (rest : List Char) :
    Reads (all as) (skip (inside indent depth (as.map write) (closing :: rest))) rest := by
  cases as with
  | nil =>
    show Reads (all []) (skip (closing :: rest)) rest
    rw [skip_cons members.closes.1]
    exact members.none rest
  | cons a as =>
    obtain ⟨first, others⟩ := List.forall_mem_cons.1 each
    have reads := first _ (members.endsNumber_later indent depth (as.map write) rest)
    rw [List.map_cons, inside, skip_append fun _ => isSpace_of_mem_lineBreak, members.solid reads]
    exact members.first reads (members.reads_later indent depth others rest)

end Members

/-! ## Values -/

/-- A value whose doubles are all finite. -/
inductive IsFinite : Json → Prop where
  | null : IsFinite .null
  | whole (n : ℤ) : IsFinite (.whole n)
  | real {x : Float} {negative : Bool} {m : ℕ} {q : ℤ} : meaning x = .finite negative m q →
      IsFinite (.real x)
  | text (s : String) : IsFinite (.text s)
  | truth (b : Bool) : IsFinite (.truth b)
  | list {items : List Json} : (∀ v ∈ items, IsFinite v) → IsFinite (.list items)
  | record {entries : List (String × Json)} : (∀ entry ∈ entries, IsFinite entry.2) →
      IsFinite (.record entries)

theorem writeItems_eq (indent : Option ℕ) (depth : ℕ) (items : List Json) :
    writeItems indent depth items = items.map (writeAt indent depth) := by
  induction items with
  | nil => rfl
  | cons item rest ih => rw [writeItems, ih, List.map_cons]

/-- The text of a field at a depth. -/
def fieldText (indent : Option ℕ) (depth : ℕ) (entry : String × Json) : String :=
  writeText entry.1 ++ ": " ++ writeAt indent depth entry.2

theorem writeFields_eq (indent : Option ℕ) (depth : ℕ) (entries : List (String × Json)) :
    writeFields indent depth entries = entries.map (fieldText indent depth) := by
  induction entries with
  | nil => rfl
  | cons entry rest ih => rw [writeFields, ih, List.map_cons, fieldText]

theorem isRead_field {indent : Option ℕ} {depth : ℕ} {entry : String × Json}
    (value : Members.IsRead .value (writeAt indent depth) entry.2) :
    Members.IsRead (fun entry => .field entry.1 entry.2) (fieldText indent depth) entry := by
  intro rest ends
  have reads := value rest ends
  have written : (fieldText indent depth entry).toList ++ rest =
      '"' :: (entry.1.toList.flatMap writeChar ++
        '"' :: ':' :: ' ' :: ((writeAt indent depth entry.2).toList ++ rest)) := by
    rw [fieldText, String.toList_append, String.toList_append, List.append_assoc, List.append_assoc,
      toList_writeText]
    rfl
  rw [written]
  refine .field (readsChars_writeText _ _) (skip_cons rfl _) ?_
  rwa [skip_space, skip_of_reads reads]

/-- A value is read as it is written at any depth. -/
theorem isRead_writeAt {v : Json} (finite : v.IsFinite) (indent : Option ℕ) (depth : ℕ) :
    Members.IsRead .value (writeAt indent depth) v := by
  induction finite generalizing depth with
  | null =>
    intro rest _
    rw [writeAt, show "null".toList = ['n', 'u', 'l', 'l'] by simp]
    exact .null
  | whole n =>
    intro rest ends
    rw [writeAt]
    exact reads_number (spellsNumber_whole n) ends
  | real finite =>
    intro rest ends
    rw [writeAt]
    exact reads_number (spellsNumber_text finite) ends
  | text s =>
    intro rest _
    rw [writeAt, toList_writeText]
    exact .text (readsChars_writeText s.toList rest)
  | truth b =>
    intro rest _
    cases b with
    | true =>
      rw [writeAt, if_pos rfl, show "true".toList = ['t', 'r', 'u', 'e'] by simp]
      exact .yes
    | false =>
      rw [writeAt, if_neg Bool.false_ne_true, show "false".toList = ['f', 'a', 'l', 's', 'e'] by simp]
      exact .no
  | list _ ih =>
    intro rest _
    have items := members_list.reads_inside indent depth (fun v listed => ih v listed (depth + 1)) rest
    rw [writeAt, toList_enclose, writeItems_eq, show "[".toList = ['['] by simp,
      show "]".toList = [']'] by simp]
    exact .list items
  | record _ ih =>
    intro rest _
    have fields := members_record.reads_inside indent depth
      (fun entry listed => isRead_field (ih entry listed (depth + 1))) rest
    rw [writeAt, toList_enclose, writeFields_eq, show "\x7b".toList = ['\x7b'] by simp,
      show "\x7d".toList = ['\x7d'] by simp]
    exact .record fields

/-- The text of a value without infinite doubles spells it, on one line or indented. -/
theorem spells_write {v : Json} (finite : v.IsFinite) (indent : Option ℕ) :
    Spells (v.write indent) v := by
  have reads := isRead_writeAt finite indent 0 [] nofun
  rw [List.append_nil] at reads
  refine ⟨[], ?_, rfl⟩
  rw [write, skip_of_reads reads]
  exact reads

end StockFlow.Report.Json
