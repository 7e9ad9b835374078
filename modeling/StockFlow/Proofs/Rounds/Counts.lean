import Mathlib
import StockFlow.Proofs.Number.RoundTrip
import StockFlow.Proofs.Number.Wholes
import StockFlow.Rounds

/-!
# Which counts are read

A whole number is read as it is. A text that denotes one is read as a double on the way, so it gives
the number only as far as fifty-three bits hold it, else the nearest one that they do, and from
`beyondDoubles` on it is refused as no other text is (`ofDatum_counts`).
-/

namespace StockFlow.Rounds

open StockFlow.Text StockFlow.Number
open StockFlow.Spec (AreDigits)

/-! ## Texts of counts -/

/-- Decimal digits of any script. -/
def AreDecimals (cs : List Char) : Prop :=
  cs ≠ [] ∧ ∀ c ∈ cs, isDecimalDigit c = true

/-- Nothing, or a point with zeros behind it. -/
def IsZeroTail (cs : List Char) : Prop :=
  cs = [] ∨ ∃ k, cs = '.' :: List.replicate (k + 1) '0'

/-- A text that denotes a natural number: its digits, of any script and with any zeros in front,
perhaps a point with zeros behind them, and blanks around. -/
def Denotes (s : String) (n : ℕ) : Prop :=
  ∃ front digits tail back, s.toList = front ++ (digits ++ tail ++ back) ∧
    (∀ c ∈ front, isBlank c = true) ∧ (∀ c ∈ back, isBlank c = true) ∧
    AreDecimals digits ∧ IsZeroTail tail ∧ digitsValue digits = n

theorem isCountText_iff {cs : List Char} :
    isCountText cs = true ↔ ∃ digits tail, cs = digits ++ tail ∧ AreDecimals digits ∧
      IsZeroTail tail := by
  unfold isCountText
  rw [List.span_eq_takeWhile_dropWhile]
  constructor
  · have parts := (List.takeWhile_append_dropWhile (p := isDecimalDigit) (l := cs)).symm
    have each : ∀ c ∈ cs.takeWhile isDecimalDigit, isDecimalDigit c = true :=
      List.all_eq_true.1 List.all_takeWhile
    generalize cs.takeWhile isDecimalDigit = digits at *
    generalize cs.dropWhile isDecimalDigit = tail at *
    intro counts
    match digits, tail with
    | [], _ => cases counts
    | first :: rest, [] =>
      exact ⟨first :: rest, [], parts, ⟨List.cons_ne_nil _ _, each⟩, .inl rfl⟩
    | first :: rest, c :: zeros =>
      by_cases point : c = '.'
      · subst point
        change (!zeros.isEmpty && zeros.all (· == '0')) = true at counts
        rw [Bool.and_eq_true, Bool.not_eq_true', List.isEmpty_eq_false_iff, List.all_eq_true]
          at counts
        obtain ⟨filled, all⟩ := counts
        obtain ⟨k, length⟩ := Nat.exists_eq_succ_of_ne_zero (mt List.length_eq_zero_iff.1 filled)
        refine ⟨first :: rest, '.' :: zeros, parts, ⟨List.cons_ne_nil _ _, each⟩, .inr ⟨k, ?_⟩⟩
        rw [List.eq_replicate_iff.2 ⟨length, fun c listed => beq_iff_eq.1 (all c listed)⟩]
      · simp [point] at counts
  · rintro ⟨digits, tail, rfl, ⟨filled, each⟩, zeros⟩
    have none : tail.takeWhile isDecimalDigit = [] ∧ tail.dropWhile isDecimalDigit = tail := by
      rcases zeros with rfl | ⟨k, rfl⟩
      · exact ⟨rfl, rfl⟩
      · exact ⟨List.takeWhile_cons_of_neg (by decide), List.dropWhile_cons_of_neg (by decide)⟩
    rw [List.takeWhile_append_of_pos each, List.dropWhile_append_of_pos each, none.1, none.2,
      List.append_nil]
    obtain ⟨first, rest, rfl⟩ := List.exists_cons_of_ne_nil filled
    rcases zeros with rfl | ⟨k, rfl⟩
    · rfl
    · simp

/-- No digit is a blank. -/
theorem isBlank_of_digitValue? {c : Char} {d : ℕ} (digit : digitValue? c = some d) :
    isBlank c = false := by
  have apart : ∀ first ∈ digitZeros, first = 48 ∨ (160 < first ∧ first + 9 < 5760) ∨
      (5760 < first ∧ first + 9 < 8192) ∨ 12288 < first := by
    decide
  obtain ⟨first, found, -⟩ := Option.map_eq_some_iff.1 digit
  have bounds := List.find?_some found
  rw [Bool.and_eq_true, decide_eq_true_eq, decide_eq_true_eq] at bounds
  have script := apart first (List.mem_of_find?_eq_some found)
  simp only [isBlank, Bool.or_eq_false_iff, Bool.and_eq_false_iff, decide_eq_false_iff_not,
    beq_eq_false_iff_ne]
  omega

/-- What surrounds a text without blanks at its ends is dropped. -/
theorem trimBy_append {p : Char → Bool} {front core back : List Char} (filled : core ≠ [])
    (before : ∀ c ∈ front, p c = true) (behind : ∀ c ∈ back, p c = true)
    (first : ∀ c ∈ core.head?, p c = false) (last : ∀ c ∈ core.getLast?, p c = false) :
    trimBy p (front ++ (core ++ back)) = core := by
  have kept : ∀ cs rest : List Char, cs ≠ [] → (∀ c ∈ cs.head?, p c = false) →
      (cs ++ rest).dropWhile p = cs ++ rest := by
    intro cs rest some first
    obtain ⟨c, more, rfl⟩ := List.exists_cons_of_ne_nil some
    exact List.dropWhile_cons_of_neg (by simp [first c rfl])
  have behind : ∀ c ∈ back.reverse, p c = true := fun c listed =>
    behind c (List.mem_reverse.1 listed)
  have last := kept core.reverse [] (by simpa using filled) (by rwa [List.head?_reverse])
  rw [List.append_nil] at last
  rw [trimBy, List.dropWhile_append_of_pos before, kept core back filled first, List.reverse_append,
    List.dropWhile_append_of_pos behind, last, List.reverse_reverse]

/-- The characters of a count are no blanks, so what is between blanks can be told from them. -/
theorem core_solid {digits tail : List Char} (decimals : AreDecimals digits)
    (zeros : IsZeroTail tail) : ∀ c ∈ digits ++ tail, isBlank c = false ∧ c ≠ '_' := by
  refine List.forall_mem_append.2 ⟨fun c listed => ?_, ?_⟩
  · obtain ⟨d, digit⟩ := Option.isSome_iff_exists.1 (decimals.2 c listed)
    refine ⟨isBlank_of_digitValue? digit, ?_⟩
    rintro rfl
    exact absurd (decimals.2 _ listed) (by decide)
  · rcases zeros with rfl | ⟨k, rfl⟩
    · exact List.forall_mem_nil _
    · refine List.forall_mem_cons.2 ⟨by decide, fun c listed => ?_⟩
      rw [List.eq_of_mem_replicate listed]
      decide

/-! ## What they give -/

section

variable {s : String} {n : ℕ}

/-- A count's text, without the blanks around it. -/
theorem Denotes.exists_core (denotes : Denotes s n) : ∃ digits tail,
    strip s = String.ofList (digits ++ tail) ∧ AreDecimals digits ∧ IsZeroTail tail ∧
      digitsValue digits = n := by
  obtain ⟨front, digits, tail, back, written, before, behind, decimals, zeros, value⟩ := denotes
  have solid := core_solid decimals zeros
  refine ⟨digits, tail, ?_, decimals, zeros, value⟩
  rw [strip, written, trimBy_append (List.append_ne_nil_of_left_ne_nil decimals.1 _) before behind]
  · exact fun c first => (solid c (List.mem_of_head? first)).1
  · exact fun c last => (solid c (List.mem_of_getLast? last)).1

/-- A text denotes a count just if it looks like one between its blanks. -/
theorem exists_denotes_iff : (∃ n, Denotes s n) ↔ isCountText (strip s).toList = true := by
  rw [isCountText_iff]
  constructor
  · rintro ⟨n, denotes⟩
    obtain ⟨digits, tail, core, decimals, zeros, -⟩ := denotes.exists_core
    exact ⟨digits, tail, by rw [core, String.toList_ofList], decimals, zeros⟩
  · rintro ⟨digits, tail, core, decimals, zeros⟩
    obtain ⟨front, back, before, behind, written⟩ := exists_eq_trimBy isBlank s.toList
    rw [strip, String.toList_ofList] at core
    rw [core] at written
    exact ⟨_, front, digits, tail, back, written, before, behind, decimals, zeros, rfl⟩

/-- The decimal text of a number denotes it. -/
theorem denotes_toString (n : ℕ) : Denotes (toString n) n := by
  obtain ⟨filled, each⟩ := areDigits_digitChars n
  refine ⟨[], digitChars n, [], [], ?_, List.forall_mem_nil _, List.forall_mem_nil _,
    ⟨filled, fun c listed => ?_⟩, .inl rfl, digitsValue_digitChars n⟩
  · rw [Nat.toString_eq_ofList_toDigits, String.toList_ofList, List.append_nil, List.append_nil]
    rfl
  · rw [isDecimalDigit, digitValue?_of_isDigit (each c listed)]
    rfl

/-- Digits with zeros behind a point are read as the double nearest to their number. -/
theorem ofText?_core {digits tail : List Char} (decimals : AreDecimals digits)
    (zeros : IsZeroTail tail) :
    ofText? (String.ofList (digits ++ tail)) = some (nearest (digitsValue digits) 1) := by
  have solid : ∀ c ∈ (String.ofList (digits ++ tail)).toList,
      isNumberBlank c = false ∧ c ≠ '_' := by
    rw [String.toList_ofList]
    intro c listed
    obtain ⟨solid, other⟩ := core_solid decimals zeros c listed
    exact ⟨by rw [isNumberBlank, solid, Bool.false_and], other⟩
  have ascii : AreDigits (digits.map asciiDigit) := by
    refine ⟨by simpa using decimals.1, fun c listed => ?_⟩
    obtain ⟨c, known, rfl⟩ := List.mem_map.1 listed
    obtain ⟨d, digit⟩ := Option.isSome_iff_exists.1 (decimals.2 c known)
    exact (digit_asciiDigit digit).1
  have value := digitsValue_map_asciiDigit digits
  have same : tail.map asciiDigit = tail := by
    rcases zeros with rfl | ⟨k, rfl⟩
    · rfl
    · rw [List.map_cons, List.map_replicate]
      rfl
  have read : unsigned? (digits.map asciiDigit ++ tail) = some (nearest (digitsValue digits) 1) := by
    rcases zeros with rfl | ⟨k, rfl⟩
    · rw [unsigned?_whole ascii (by simp), value]
      exact congrArg some (by simpa using ofDecimal_mul_pow (digitsValue digits) 0)
    · have each : ∀ c ∈ List.replicate (k + 1) '0', c.isDigit = true :=
        fun c => isDigit_of_mem_zeros
      rw [unsigned?_fraction ascii each, digitsValue_append_zeros _ ascii.2, value,
        List.length_replicate, ofDecimal_mul_pow]
  rw [ofText?_eq solid, String.toList_ofList, List.map_append, same]
  obtain ⟨first, rest, split⟩ := List.exists_cons_of_ne_nil ascii.1
  rw [split] at ascii read ⊢
  have digit := ascii.2 first (List.mem_cons_self ..)
  rw [List.cons_append] at read ⊢
  rw [signed_of_isDigit digit, named?_of_isDigit digit, Option.none_or, read, Option.map_some,
    if_neg Bool.false_ne_true]

/-- A text that denotes a count gives the double nearest to it, unless that is infinite. -/
theorem ofText_of_denotes (denotes : Denotes s n) :
    ofText s = if n < beyondDoubles then .ok (rounded n) else .error .countTooLarge := by
  obtain ⟨digits, tail, core, decimals, zeros, value⟩ := denotes.exists_core
  have counts : isCountText (digits ++ tail) = true :=
    isCountText_iff.2 ⟨digits, tail, rfl, decimals, zeros⟩
  obtain ⟨first, rest, rfl⟩ := List.exists_cons_of_ne_nil decimals.1
  have filled : String.ofList (first :: rest ++ tail) ≠ "" := by
    intro empty
    have chars := congrArg String.toList empty
    rw [String.toList_ofList] at chars
    cases chars
  have unsigned : (first :: rest ++ tail).head? ≠ some '-' := by
    intro sign
    have digit := decimals.2 first (List.mem_cons_self ..)
    rw [Option.some.inj sign] at digit
    exact absurd digit (by decide)
  unfold ofText
  simp only [core]
  rw [if_neg filled, String.toList_ofList, if_neg unsigned, counts, ofText?_core decimals zeros,
    value, Option.bind_some, whole?_nearest, if_neg (by decide)]
  by_cases small : n < beyondDoubles
  · simp only [if_pos small, Int.toNat_natCast]
  · simp only [if_neg small]

theorem ofText_of_not_denotes (other : ∀ n, ¬ Denotes s n) :
    ∃ flaw, ofText s = .error (.badCount flaw) := by
  unfold ofText
  simp only
  split
  · exact ⟨_, rfl⟩
  · split
    · exact ⟨_, rfl⟩
    · split
      · exact ⟨_, rfl⟩
      · rename_i counts
        have counts : isCountText (strip s).toList = true := by simpa using counts
        obtain ⟨n, denotes⟩ := exists_denotes_iff.2 counts
        exact absurd denotes (other n)

end

/-- A whole number is the count that it is. A text that denotes one gives the nearest number of
fifty-three bits, which is the number itself just if the power of two that parts the doubles there
divides it; where the doubles end, converting it fails. Any other text is refused as no count. -/
theorem ofDatum_counts (n : ℕ) (s : String) :
    ofDatum (.whole n) = .ok n ∧
    (Denotes s n →
      ofDatum (.text s) = (if n < beyondDoubles then .ok (rounded n) else .error .countTooLarge) ∧
      (ofDatum (.text s) = .ok n ↔ n < beyondDoubles ∧ unitOf n ∣ n)) ∧
    ((∀ m, ¬ Denotes s m) → ∃ flaw, ofDatum (.text s) = .error (.badCount flaw)) := by
  refine ⟨?_, fun denotes => ?_, ofText_of_not_denotes⟩
  · rw [ofDatum, ofWhole, if_neg (by omega), Int.toNat_natCast]
  · have read : ofDatum (.text s) = _ := ofText_of_denotes denotes
    refine ⟨read, ?_⟩
    rw [read, ← rounded_eq_self_iff]
    by_cases small : n < beyondDoubles
    · rw [if_pos small, Except.ok.injEq]
      exact (and_iff_right small).symm
    · rw [if_neg small]
      exact iff_of_false nofun fun both => small both.1

theorem ofDatum_counts_surrounded :
    Denotes "\t 007.00\n" 7 ∧ ofDatum (.text "\t 007.00\n") = .ok 7 ∧
      (∀ n, ¬ Denotes "1.50" n) ∧ ∃ flaw, ofDatum (.text "1.50") = .error (.badCount flaw) := by
  have denotes : Denotes "\t 007.00\n" 7 :=
    ⟨['\t', ' '], ['0', '0', '7'], ['.', '0', '0'], ['\n'], rfl, by simp [isBlank], by simp [isBlank],
      ⟨List.cons_ne_nil _ _, List.all_eq_true.1 (by decide)⟩, .inr ⟨1, rfl⟩, rfl⟩
  have other : ∀ n, ¬ Denotes "1.50" n := fun n denotes =>
    absurd (exists_denotes_iff.1 ⟨n, denotes⟩) (by decide +kernel)
  have read := ((ofDatum_counts 7 "\t 007.00\n").2.1 denotes).2
  exact ⟨denotes, read.2 (by decide +kernel), other, (ofDatum_counts 0 "1.50").2.2 other⟩

/-- Texts do not give all numbers that they denote, and not all that fails is the refusal of a
count: `9007199254740993` gives the even number below it, and the digits of `beyondDoubles` stand
for a double that cannot be converted. -/
theorem not_ofDatum_counts_exact :
    (¬ ∀ s n, Denotes s n → ofDatum (.text s) = .ok n) ∧
      ¬ ∀ s, (∃ n, ofDatum (.text s) = .ok n) ∨ ∃ flaw, ofDatum (.text s) = .error (.badCount flaw) := by
  have read : ∀ s n, Denotes s n →
      ofDatum (.text s) = if n < beyondDoubles then .ok (rounded n) else .error .countTooLarge :=
    fun s n => ofText_of_denotes
  constructor
  · intro always
    have denotes := denotes_toString 9007199254740993
    have exact := always _ _ denotes
    rw [read _ _ denotes, if_pos (by decide +kernel)] at exact
    exact absurd exact (by decide +kernel)
  · intro always
    obtain ⟨n, large⟩ : ∃ n, ¬ n < beyondDoubles := ⟨beyondDoubles, lt_irrefl _⟩
    have overflows := read _ _ (denotes_toString n)
    rw [if_neg large] at overflows
    rcases always (toString n) with ⟨count, exact⟩ | ⟨flaw, refused⟩
    · rw [overflows] at exact
      cases exact
    · rw [overflows] at refused
      cases refused

end StockFlow.Rounds
