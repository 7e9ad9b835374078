import Mathlib
import StockFlow.Number.Reading
import StockFlow.Number.Text
import StockFlow.Proofs.Spec.Shape

/-!
# Reading digits

A number in ASCII digits is read digit by digit: the digits, the point and the exponent that a text
starts with are found where they end (`unsigned?_whole`, `unsigned?_point`), and the digits of a
natural number have its value (`digitsValue_digitChars`). A text without blanks and underscores is
read from its sign on (`ofText?_eq`).
-/

namespace StockFlow.Text

theorem digitValue?_of_isDigit {c : Char} (digit : c.isDigit = true) :
    digitValue? c = some (c.toNat - 48) := by
  have bounds : 48 ≤ c.toNat ∧ c.toNat < 48 + 10 := by
    simp only [Char.isDigit, Bool.and_eq_true, decide_eq_true_eq] at digit
    exact ⟨digit.1, Nat.lt_succ_of_le digit.2⟩
  rw [digitValue?, digitZeros, List.find?_cons_of_pos (by simp [bounds])]
  rfl

theorem digitValue?_lt {c : Char} {d : ℕ} (digit : digitValue? c = some d) : d < 10 := by
  obtain ⟨first, found, rfl⟩ := Option.map_eq_some_iff.1 digit
  have bounds := List.find?_some found
  rw [Bool.and_eq_true, decide_eq_true_eq, decide_eq_true_eq] at bounds
  omega

/-- Decimal digits are read as in any other place. -/
theorem digitsValue_eq {cs : List Char} (digits : ∀ c ∈ cs, c.isDigit = true) :
    digitsValue cs = Nat.ofDigitChars 10 cs 0 := by
  rw [Nat.ofDigitChars_eq_foldl]
  unfold digitsValue
  generalize 0 = n
  induction cs generalizing n with
  | nil => rfl
  | cons c rest ih =>
    rw [List.foldl_cons, List.foldl_cons, digitValue?_of_isDigit (digits c (List.mem_cons_self ..)),
      mul_comm]
    exact ih (fun d listed => digits d (List.mem_cons_of_mem _ listed)) _

end StockFlow.Text

namespace StockFlow.Number

open StockFlow.Text
open StockFlow.Spec (AreDigits)

theorem isDigit_of_mem_digitChars {n : ℕ} {c : Char} (listed : c ∈ digitChars n) :
    c.isDigit = true :=
  Nat.isDigit_of_mem_toDigits (by norm_num) le_rfl listed

theorem digitsValue_digitChars (n : ℕ) : digitsValue (digitChars n) = n := by
  rw [digitsValue_eq fun _ => isDigit_of_mem_digitChars]
  exact Nat.ofDigitChars_ten_toDigits

/-! ## Plain text -/

/-- The ASCII digit of a digit has its value. -/
theorem digit_asciiDigit {c : Char} {d : ℕ} (digit : digitValue? c = some d) :
    (asciiDigit c).isDigit = true ∧ digitValue? (asciiDigit c) = some d := by
  have each : ∀ d < 10, (Char.ofNat (48 + d)).isDigit = true ∧
      digitValue? (Char.ofNat (48 + d)) = some d := by decide
  rw [asciiDigit, digit]
  exact each d (digitValue?_lt digit)

theorem digitValue?_asciiDigit (c : Char) : digitValue? (asciiDigit c) = digitValue? c := by
  cases digit : digitValue? c with
  | none => rw [asciiDigit, digit, digit]
  | some d => exact (digit_asciiDigit digit).2

theorem digitsValue_map_asciiDigit (cs : List Char) :
    digitsValue (cs.map asciiDigit) = digitsValue cs := by
  unfold digitsValue
  rw [List.foldl_map]
  simp only [digitValue?_asciiDigit]

theorem asciiDigit_of_isDigit {c : Char} (digit : c.isDigit = true) : asciiDigit c = c := by
  rw [asciiDigit, digitValue?_of_isDigit digit]
  have bounds : 48 ≤ c.toNat := by
    simp only [Char.isDigit, Bool.and_eq_true, decide_eq_true_eq] at digit
    exact digit.1
  simp only
  rw [Nat.add_sub_cancel' bounds, Char.ofNat_toNat]

theorem asciiDigit_ne {c : Char} (other : c ≠ '_') : asciiDigit c ≠ '_' := by
  cases digit : digitValue? c with
  | none => rwa [asciiDigit, digit]
  | some d =>
    intro same
    have ascii := (digit_asciiDigit digit).1
    rw [same] at ascii
    cases ascii

theorem joinDigits?_eq_self {cs : List Char} (none : '_' ∉ cs) (afterDigit : Bool) :
    joinDigits? afterDigit cs = some cs := by
  induction cs generalizing afterDigit with
  | nil => rfl
  | cons c rest ih =>
    rw [List.mem_cons, not_or] at none
    rw [joinDigits?, if_neg fun same => none.1 same.symm, ih none.2]
    · rfl
    · rintro _ _ rfl -
      exact none.1 rfl

theorem toLower_of_isDigit {c : Char} (digit : c.isDigit = true) : c.toLower = c := by
  have bounds : c.val ≤ 57 := by
    simp only [Char.isDigit, Bool.and_eq_true, decide_eq_true_eq] at digit
    exact digit.2
  rw [Char.toLower, dif_neg]
  rintro ⟨upper, -⟩
  exact absurd (UInt32.le_trans upper bounds) (by decide)

/-- No name starts with a digit. -/
theorem named?_of_isDigit {c : Char} (digit : c.isDigit = true) (cs : List Char) :
    named? (c :: cs) = none := by
  have other : ∀ (text : String) (d : Char), text.toList.head? = some d → d.isDigit = false →
      String.ofList ((c :: cs).map Char.toLower) ≠ text := by
    rintro text d first letter rfl
    rw [String.toList_ofList, List.map_cons, toLower_of_isDigit digit] at first
    rw [← Option.some.inj first, digit] at letter
    cases letter
  unfold named?
  split
  · rename_i same
    exact absurd same (other _ 'i' (by simp) rfl)
  · rename_i same
    exact absurd same (other _ 'i' (by simp) rfl)
  · rename_i same
    exact absurd same (other _ 'n' (by simp) rfl)
  · rfl

/-! ## Digits, a point and an exponent -/

theorem digitRun_append {digits rest : List Char} (each : ∀ c ∈ digits, c.isDigit = true)
    (ends : ∀ c ∈ rest.head?, c.isDigit = false) : digitRun (digits ++ rest) = (digits, rest) := by
  have before : ∀ c ∈ digits, isAsciiDigit c = true := each
  have behind : rest.takeWhile isAsciiDigit = [] ∧ rest.dropWhile isAsciiDigit = rest := by
    cases rest with
    | nil => exact ⟨rfl, rfl⟩
    | cons c more =>
      have other : ¬ isAsciiDigit c = true := by
        rw [Bool.not_eq_true]
        exact ends c rfl
      exact ⟨List.takeWhile_cons_of_neg other, List.dropWhile_cons_of_neg other⟩
  rw [digitRun, List.span_eq_takeWhile_dropWhile, List.takeWhile_append_of_pos before,
    List.dropWhile_append_of_pos before, behind.1, behind.2, List.append_nil]

/-- A number without a point. -/
theorem unsigned?_whole {whole tail : List Char} (digits : AreDigits whole)
    (ends : ∀ c ∈ tail.head?, c.isDigit = false ∧ c ≠ '.') :
    unsigned? (whole ++ tail) = (exponent? tail).map (ofDecimal (digitsValue whole)) := by
  have run := digitRun_append digits.2 fun c first => (ends c first).1
  have none : ∀ rest, tail ≠ '.' :: rest := by
    rintro rest rfl
    exact (ends '.' rfl).2 rfl
  -- the match on what follows the digits asks that no point is there
  unfold unsigned?
  rw [run]
  simp [digits.1]

/-- A number with a point behind some digits. -/
theorem unsigned?_point {whole fraction tail : List Char} (digits : AreDigits whole)
    (more : ∀ c ∈ fraction, c.isDigit = true) (ends : ∀ c ∈ tail.head?, c.isDigit = false) :
    unsigned? (whole ++ '.' :: (fraction ++ tail)) = (exponent? tail).map fun e =>
      ofDecimal (digitsValue (whole ++ fraction)) (e - fraction.length) := by
  have run : digitRun (whole ++ '.' :: (fraction ++ tail)) = (whole, '.' :: (fraction ++ tail)) :=
    digitRun_append digits.2 fun c first => by
      obtain rfl := Option.some.inj first
      rfl
  unfold unsigned?
  rw [run]
  simp only [digitRun_append more ends]
  simp [digits.1]

theorem areDigits_digitChars (n : ℕ) : AreDigits (digitChars n) :=
  ⟨Nat.toDigits_ne_nil, fun _ => isDigit_of_mem_digitChars⟩

/-- An exponent is written with a sign and digits. -/
theorem exists_exponentChars (e : ℤ) : ∃ digits,
    exponentChars e = (if e < 0 then '-' else '+') :: digits ∧ AreDigits digits ∧
      digitsValue digits = e.natAbs := by
  have plain := areDigits_digitChars e.natAbs
  by_cases short : (digitChars e.natAbs).length < 2
  · refine ⟨'0' :: digitChars e.natAbs, by simp [exponentChars, short], ?_, ?_⟩
    · exact ⟨List.cons_ne_nil _ _, List.forall_mem_cons.2 ⟨rfl, plain.2⟩⟩
    · exact digitsValue_digitChars e.natAbs
  · exact ⟨_, by simp [exponentChars, short], plain, digitsValue_digitChars _⟩

/-- An exponent is read as it is written. -/
theorem exponent?_exponentChars (e : ℤ) : exponent? ('e' :: exponentChars e) = some e := by
  obtain ⟨digits, written, each, value⟩ := exists_exponentChars e
  have run : digitRun (digits ++ []) = (digits, []) := digitRun_append each.2 (by simp)
  rw [List.append_nil] at run
  have filled := each.1
  rw [exponent?, if_pos (by decide), written]
  by_cases negative : e < 0
  · rw [if_pos negative]
    simp [signed, run, filled, value, abs_of_neg negative]
  · rw [if_neg negative]
    simp [signed, run, filled, value, abs_of_nonneg (not_lt.1 negative)]

/-! ## Whole texts -/

/-- A text without blanks and underscores is read from its sign on. -/
theorem ofText?_eq {s : String} (solid : ∀ c ∈ s.toList, isNumberBlank c = false ∧ c ≠ '_') :
    ofText? s =
      ((named? (signed (s.toList.map asciiDigit)).2).or
        (unsigned? (signed (s.toList.map asciiDigit)).2)).map
          fun size => if (signed (s.toList.map asciiDigit)).1 then -size else size := by
  have whole : trimBy isNumberBlank s.toList = s.toList := trimBy_eq_self
    (fun c first => (solid c (List.mem_of_head? first)).1)
    (fun c last => (solid c (List.mem_of_getLast? last)).1)
  have none : '_' ∉ s.toList.map asciiDigit := by
    rintro listed
    obtain ⟨c, known, same⟩ := List.mem_map.1 listed
    exact asciiDigit_ne (solid c known).2 same
  unfold ofText?
  rw [whole, joinDigits?_eq_self none]
  simp [Option.map_eq_bind]

end StockFlow.Number
