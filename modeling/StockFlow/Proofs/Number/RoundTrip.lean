import Mathlib
import StockFlow.Proofs.Number.Decimal
import StockFlow.Proofs.Number.Reading

/-!
# Texts of doubles read back

A decimal is written in place or with an exponent, and read either way as digits and a power of ten
that make up its value (`reads_chars`). As the shortest decimal of a double lies in the double's
stretch, the text of every double denotes that double, also where it is infinite, no number or a
zero with a sign (`ofText?_text`).
-/

namespace StockFlow.Number

open StockFlow.Text
open StockFlow.Spec (AreDigits)

/-! ## Decimals -/

theorem digitsValue_append {front back : List Char} (digits : ∀ c ∈ front, c.isDigit = true)
    (more : ∀ c ∈ back, c.isDigit = true) :
    digitsValue (front ++ back) = digitsValue front * 10 ^ back.length + digitsValue back := by
  rw [digitsValue_eq digits, digitsValue_eq more,
    digitsValue_eq fun c listed => (List.mem_append.1 listed).elim (digits c) (more c),
    Nat.ofDigitChars_append, Nat.ofDigitChars_eq_ofDigitChars_zero, mul_comm]

theorem isDigit_of_mem_zeros {k : ℕ} {c : Char} (listed : c ∈ List.replicate k '0') :
    c.isDigit = true := by
  rw [List.eq_of_mem_replicate listed]
  rfl

/-- Zeros in front of digits say nothing. -/
theorem digitsValue_zeros_append (k : ℕ) {cs : List Char} (digits : ∀ c ∈ cs, c.isDigit = true) :
    digitsValue (List.replicate k '0' ++ cs) = digitsValue cs := by
  rw [digitsValue_append (fun _ => isDigit_of_mem_zeros) digits, digitsValue_zeros, Nat.zero_mul,
    Nat.zero_add]

/-- Each zero behind digits is a factor of ten. -/
theorem digitsValue_append_zeros (k : ℕ) {cs : List Char} (digits : ∀ c ∈ cs, c.isDigit = true) :
    digitsValue (cs ++ List.replicate k '0') = digitsValue cs * 10 ^ k := by
  rw [digitsValue_append digits fun _ => isDigit_of_mem_zeros, digitsValue_zeros, Nat.add_zero,
    List.length_replicate]

/-- A decimal with a point and no exponent. -/
theorem unsigned?_fraction {whole fraction : List Char} (digits : AreDigits whole)
    (more : ∀ c ∈ fraction, c.isDigit = true) :
    unsigned? (whole ++ '.' :: fraction) =
      some (ofDecimal (digitsValue (whole ++ fraction)) (-fraction.length)) := by
  have read : unsigned? (whole ++ '.' :: (fraction ++ [])) = _ :=
    unsigned?_point digits more (by simp)
  rw [List.append_nil] at read
  rw [read, ← zero_sub]
  rfl

/-- A decimal written in place has digits on both sides of the point, and its value. -/
theorem exists_positional (d : Decimal) : ∃ whole fraction,
    d.positional = whole ++ '.' :: fraction ∧ AreDigits whole ∧ AreDigits fraction ∧
      (digitsValue (whole ++ fraction) : ℚ) * 10 ^ (-fraction.length : ℤ) = d.value := by
  obtain ⟨filled, digits⟩ := areDigits_digitChars d.digits
  have value := digitsValue_digitChars d.digits
  unfold Decimal.positional
  simp only
  generalize digitChars d.digits = chars at *
  split
  · -- zeros between the point and the digits
    rename_i small
    generalize zeros : (-(chars.length + d.exponent)).toNat = k
    have each : ∀ c ∈ List.replicate k '0' ++ chars, c.isDigit = true := fun c listed =>
      (List.mem_append.1 listed).elim isDigit_of_mem_zeros (digits c)
    refine ⟨['0'], List.replicate k '0' ++ chars, rfl, ⟨List.cons_ne_nil _ _, by simp⟩,
      ⟨List.append_ne_nil_of_right_ne_nil _ filled, each⟩, ?_⟩
    have sum : digitsValue (['0'] ++ (List.replicate k '0' ++ chars)) = d.digits := by
      rw [← value]
      exact digitsValue_zeros_append (k + 1) digits
    have places : -((List.replicate k '0' ++ chars).length : ℤ) = d.exponent := by
      rw [List.length_append, List.length_replicate]
      omega
    rw [sum, places, Decimal.value]
  · rename_i large
    split
    · -- the point among the digits
      rename_i small
      generalize place : (chars.length + d.exponent).toNat = k
      refine ⟨chars.take k, chars.drop k, rfl, ⟨fun empty => ?_, ?_⟩, ⟨fun empty => ?_, ?_⟩, ?_⟩
      · rcases List.take_eq_nil_iff.1 empty with nowhere | nothing
        · omega
        · exact filled nothing
      · exact fun c listed => digits c (List.mem_of_mem_take listed)
      · have ended := List.drop_eq_nil_iff.1 empty
        omega
      · exact fun c listed => digits c (List.mem_of_mem_drop listed)
      · have places : -((chars.drop k).length : ℤ) = d.exponent := by
          rw [List.length_drop]
          omega
        rw [List.take_append_drop, value, places, Decimal.value]
    · -- zeros behind the digits
      rename_i whole
      have each : ∀ c ∈ chars ++ List.replicate d.exponent.toNat '0', c.isDigit = true :=
        fun c listed => (List.mem_append.1 listed).elim (digits c) isDigit_of_mem_zeros
      refine ⟨chars ++ List.replicate d.exponent.toNat '0', List.replicate 1 '0', rfl,
        ⟨List.append_ne_nil_of_left_ne_nil filled _, each⟩,
        ⟨List.cons_ne_nil _ _, fun _ => isDigit_of_mem_zeros⟩, ?_⟩
      have power : (10 : ℚ) ^ d.exponent = 10 ^ d.exponent.toNat := by
        rw [← zpow_natCast, Int.toNat_of_nonneg (not_lt.1 whole)]
      rw [digitsValue_append_zeros 1 each, digitsValue_append_zeros _ digits, value, Decimal.value,
        power, List.length_replicate]
      push_cast
      rw [zpow_neg_one]
      field_simp

/-- What is read from the characters of a decimal has its value. -/
def Reads (cs : List Char) (v : ℚ) : Prop :=
  ∃ (n : ℕ) (e : ℤ), unsigned? cs = some (ofDecimal n e) ∧ (n : ℚ) * 10 ^ e = v

theorem reads_positional (d : Decimal) : Reads d.positional d.value := by
  obtain ⟨whole, fraction, written, digits, more, value⟩ := exists_positional d
  exact ⟨_, _, written ▸ unsigned?_fraction digits more.2, value⟩

/-- A decimal with an exponent has its value. -/
theorem reads_scientific (d : Decimal) : Reads d.scientific d.value := by
  obtain ⟨filled, digits⟩ := areDigits_digitChars d.digits
  have value := digitsValue_digitChars d.digits
  unfold Decimal.scientific Decimal.power
  refine ⟨d.digits, d.exponent, ?_, rfl⟩
  have ends : ∀ e, ∀ c ∈ ('e' :: exponentChars e).head?, c.isDigit = false ∧ c ≠ '.' := by
    rintro e c first
    obtain rfl := Option.some.inj first
    exact ⟨rfl, by decide⟩
  generalize digitChars d.digits = chars at *
  match chars with
  | [single] =>
    show unsigned? ([single] ++ 'e' :: exponentChars _) = _
    rw [unsigned?_whole ⟨filled, digits⟩ (ends _), exponent?_exponentChars, value]
    simp
  | first :: second :: rest =>
    have whole : AreDigits [first] :=
      ⟨List.cons_ne_nil _ _, List.forall_mem_singleton.2 (digits first (List.mem_cons_self ..))⟩
    have read : ∀ e, unsigned? ([first] ++ '.' :: (second :: rest ++ 'e' :: exponentChars e)) =
        some (ofDecimal d.digits (e - (second :: rest).length)) := by
      intro e
      rw [unsigned?_point whole (fun c listed => digits c (List.mem_cons_of_mem _ listed))
        fun c first => (ends e c first).1, exponent?_exponentChars, List.singleton_append, value]
      rfl
    refine (read _).trans ?_
    congr 2
    rw [List.length_cons]
    omega

theorem reads_chars (d : Decimal) : Reads d.chars d.value := by
  unfold Decimal.chars
  split
  · exact reads_positional d
  · exact reads_scientific d

/-! ## Characters of decimals -/

/-- A character of a decimal. -/
def IsPlain (c : Char) : Prop :=
  c.isDigit = true ∨ c = '.' ∨ c = 'e' ∨ c = '+' ∨ c = '-'

/-- The characters of an unsigned decimal: a digit at the front, all of them plain. -/
structure IsNumeral (cs : List Char) : Prop where
  head : ∃ first rest, cs = first :: rest ∧ first.isDigit = true
  plain : ∀ c ∈ cs, IsPlain c

theorem IsPlain.solid {c : Char} (plain : IsPlain c) : isNumberBlank c = false ∧ c ≠ '_' := by
  rcases plain with digit | rfl | rfl | rfl | rfl
  · have bounds : 48 ≤ c.toNat ∧ c.toNat ≤ 57 := by
      simp only [Char.isDigit, Bool.and_eq_true, decide_eq_true_eq] at digit
      exact digit
    constructor
    · simp [isNumberBlank, isBlank]
      omega
    · rintro rfl
      cases digit
  all_goals exact ⟨by decide, by decide⟩

theorem IsPlain.asciiDigit {c : Char} (plain : IsPlain c) : asciiDigit c = c := by
  rcases plain with digit | rfl | rfl | rfl | rfl
  · exact asciiDigit_of_isDigit digit
  all_goals decide

theorem plain_of_areDigits {cs : List Char} (digits : AreDigits cs) : ∀ c ∈ cs, IsPlain c :=
  fun c listed => .inl (digits.2 c listed)

theorem isNumeral_append {cs rest : List Char} (digits : AreDigits cs)
    (plain : ∀ c ∈ rest, IsPlain c) : IsNumeral (cs ++ rest) := by
  obtain ⟨first, more, rfl⟩ := List.exists_cons_of_ne_nil digits.1
  exact ⟨⟨first, more ++ rest, rfl, digits.2 first (List.mem_cons_self ..)⟩,
    List.forall_mem_append.2 ⟨plain_of_areDigits digits, plain⟩⟩

theorem plain_point {cs : List Char} (plain : ∀ c ∈ cs, IsPlain c) : ∀ c ∈ '.' :: cs, IsPlain c :=
  List.forall_mem_cons.2 ⟨.inr (.inl rfl), plain⟩

theorem isNumeral_positional (d : Decimal) : IsNumeral d.positional := by
  obtain ⟨whole, fraction, written, digits, more, -⟩ := exists_positional d
  rw [written]
  exact isNumeral_append digits (plain_point (plain_of_areDigits more))

theorem plain_exponentChars (e : ℤ) : ∀ c ∈ 'e' :: exponentChars e, IsPlain c := by
  obtain ⟨digits, written, each, -⟩ := exists_exponentChars e
  have sign : IsPlain (if e < 0 then '-' else '+') := by
    split <;> simp [IsPlain]
  rw [written]
  exact List.forall_mem_cons.2 ⟨.inr (.inr (.inl rfl)),
    List.forall_mem_cons.2 ⟨sign, plain_of_areDigits each⟩⟩

theorem isNumeral_scientific (d : Decimal) : IsNumeral d.scientific := by
  have digits := areDigits_digitChars d.digits
  unfold Decimal.scientific
  have exponent := plain_exponentChars d.power
  generalize digitChars d.digits = chars at *
  match chars with
  | [single] => exact isNumeral_append digits exponent
  | first :: second :: rest =>
    obtain ⟨front, back⟩ := List.forall_mem_cons.1 (plain_of_areDigits digits)
    have whole : AreDigits [first] :=
      ⟨List.cons_ne_nil _ _, List.forall_mem_singleton.2 (digits.2 first (List.mem_cons_self ..))⟩
    show IsNumeral ([first] ++ '.' :: (second :: rest ++ 'e' :: exponentChars d.power))
    exact isNumeral_append whole (plain_point (List.forall_mem_append.2 ⟨back, exponent⟩))

theorem isNumeral_chars (d : Decimal) : IsNumeral d.chars := by
  unfold Decimal.chars
  split
  · exact isNumeral_positional d
  · exact isNumeral_scientific d

/-! ## Leading digits -/

/-- No zero stands in front of the digits of a number but that of zero. -/
theorem head?_digitChars {n : ℕ} (zero : (digitChars n).head? = some '0') : n = 0 := by
  induction n using Nat.strong_induction_on with
  | _ n ih =>
    rcases Nat.lt_or_ge n 10 with small | large
    · rw [digitChars, Nat.toDigits_of_lt_base small] at zero
      interval_cases n <;> first | rfl | cases zero
    · rw [digitChars, Nat.toDigits_of_base_le (by norm_num) large,
        List.head?_append_of_ne_nil _ Nat.toDigits_ne_nil] at zero
      have none : n / 10 = 0 := ih _ (Nat.div_lt_self (by omega) (by norm_num)) zero
      omega

/-- A decimal written in place begins with a zero only if the point is next. -/
theorem leading_positional {d : Decimal} (some : 0 < d.digits) {cs : List Char}
    (zero : d.positional = '0' :: cs) : cs.head? = Option.some '.' := by
  have leading : (digitChars d.digits).head? ≠ Option.some '0' := fun zero =>
    some.ne' (head?_digitChars zero)
  obtain ⟨first, more, digits⟩ := List.exists_cons_of_ne_nil (areDigits_digitChars d.digits).1
  unfold Decimal.positional at zero
  rw [digits] at zero leading
  simp only at zero
  split at zero
  · rw [← (List.cons.inj zero).2]
    rfl
  · rename_i inside
    refine absurd (congrArg Option.some ?_) leading
    split at zero
    · obtain ⟨place, point⟩ :=
        Nat.exists_eq_succ_of_ne_zero (mt Int.toNat_eq_zero.1 inside)
      rw [point] at zero
      exact (List.cons.inj zero).1
    · exact (List.cons.inj zero).1

/-! ## Doubles -/

theorem signed_of_isDigit {first : Char} (digit : first.isDigit = true) (rest : List Char) :
    signed (first :: rest) = (false, first :: rest) := by
  unfold signed
  split
  · rename_i same
    rw [(List.cons.inj same).1] at digit
    cases digit
  · rename_i same
    rw [(List.cons.inj same).1] at digit
    cases digit
  · rfl

/-- A decimal with or without a minus is read as such. -/
theorem ofText?_signed {size : List Char} (numeral : IsNumeral size) (negative : Bool) :
    ofText? (String.ofList (if negative then '-' :: size else size)) =
      (unsigned? size).map fun y => if negative then -y else y := by
  obtain ⟨⟨first, rest, rfl, digit⟩, plain⟩ := numeral
  have unnamed := named?_of_isDigit digit rest
  have plain : ∀ c ∈ (if negative then '-' :: first :: rest else first :: rest), IsPlain c := by
    split
    · exact List.forall_mem_cons.2 ⟨by simp [IsPlain], plain⟩
    · exact plain
  have unchanged := List.map_congr_left fun c listed => (plain c listed).asciiDigit
  rw [List.map_id'] at unchanged
  have sign : signed (if negative then '-' :: first :: rest else first :: rest) =
      (negative, first :: rest) := by
    cases negative with
    | true => rfl
    | false => exact signed_of_isDigit digit rest
  rw [ofText?_eq (by rw [String.toList_ofList]; exact fun c listed => (plain c listed).solid),
    String.toList_ofList, unchanged, sign, unnamed, Option.none_or]

/-- A decimal in the stretch of a double is read as the double, with its sign. -/
theorem signed_ofDecimal {x : Float} {negative : Bool} {m n : ℕ} {q e : ℤ}
    (finite : meaning x = .finite negative m q) (positive : 0 < m)
    (rounds : RoundsTo (n * 10 ^ e) m q) :
    (if negative then -ofDecimal n e else ofDecimal n e) = x := by
  have some : 0 < n := by
    refine Nat.pos_of_ne_zero fun none => (rounds.pos positive).ne' ?_
    rw [none, Nat.cast_zero, zero_mul]
  have known := meaning_ofDecimal some positive (isCanonical_of_ofBits finite) rounds
  refine eq_of_meaning ?_
  rw [finite]
  cases negative with
  | true => rw [if_pos rfl, meaning_neg known, Bool.not_false]
  | false => rw [if_neg Bool.false_ne_true, known]

theorem meaning_zero (negative : Bool) :
    meaning (if negative then -0.0 else 0.0) = .finite negative 0 (-1074) := by
  cases negative <;> decide +kernel

theorem eq_zero_of_meaning {x : Float} {negative : Bool} {q : ℤ}
    (finite : meaning x = .finite negative 0 q) : (if negative then -0.0 else 0.0) = x := by
  have least := (isCanonical_of_ofBits finite).full.resolve_right (by rw [hiddenBit_eq]; omega)
  refine eq_of_meaning ?_
  rw [finite, least, meaning_zero]

theorem ofText?_zero (negative : Bool) :
    ofText? (String.ofList (if negative then '-' :: ['0', '.', '0'] else ['0', '.', '0'])) =
      some (if negative then -0.0 else 0.0) := by
  have digit : AreDigits ['0'] := ⟨List.cons_ne_nil _ _, by simp⟩
  have plain : IsNumeral ['0', '.', '0'] :=
    isNumeral_append digit (plain_point (plain_of_areDigits digit))
  have read : unsigned? ['0', '.', '0'] = some 0.0 := by
    have none : digitsValue (['0'] ++ ['0']) = 0 := digitsValue_zeros 2
    refine (unsigned?_fraction digit digit.2).trans ?_
    rw [none, ofDecimal_zero]
  rw [ofText?_signed plain, read, Option.map_some]

theorem ofText?_names : ofText? "nan" = some (0.0 / 0.0) ∧ ofText? "inf" = some (1.0 / 0.0) ∧
    ofText? "-inf" = some (-(1.0 / 0.0)) :=
  ⟨rfl, rfl, rfl⟩

theorem meaning_nan : meaning (0.0 / 0.0) = .nan := by
  decide +kernel

theorem meaning_infinite (negative : Bool) :
    meaning (if negative then -(1.0 / 0.0) else 1.0 / 0.0) = .infinite negative := by
  cases negative <;> decide +kernel

/-- A text of a double denotes it, however positive finite sizes are written, so long as they read
back. -/
theorem ofText?_textBy {write : Decimal → List Char} (numeral : ∀ d, IsNumeral (write d))
    (reads : ∀ d, Reads (write d) d.value) (x : Float) :
    ofText? ((meaning x).textBy write) = some x := by
  cases finite : meaning x with
  | nan =>
    rw [eq_of_meaning (finite.trans meaning_nan.symm)]
    exact ofText?_names.1
  | infinite negative =>
    rw [eq_of_meaning (finite.trans (meaning_infinite negative).symm)]
    cases negative with
    | true => exact ofText?_names.2.2
    | false => exact ofText?_names.2.1
  | finite negative m q =>
    have canonical := isCanonical_of_ofBits finite
    show ofText? (String.ofList
      (if negative then '-' :: (if m = 0 then ['0', '.', '0'] else write (shortest m q))
        else if m = 0 then ['0', '.', '0'] else write (shortest m q))) = _
    by_cases zero : m = 0
    · rw [if_pos zero, ofText?_zero, eq_zero_of_meaning (zero ▸ finite)]
    · have positive := Nat.pos_of_ne_zero zero
      have rounds := roundsTo_shortest positive canonical
      obtain ⟨n, e, read, value⟩ := reads (shortest m q)
      rw [← value] at rounds
      rw [if_neg zero, ofText?_signed (numeral _), read, Option.map_some,
        signed_ofDecimal finite positive rounds]

/-- The text of a double denotes it. -/
theorem ofText?_text (x : Float) : ofText? (text x) = some x :=
  ofText?_textBy isNumeral_chars reads_chars x

theorem ofText?_positionalText (x : Float) : ofText? (positionalText x) = some x :=
  ofText?_textBy isNumeral_positional reads_positional x

/-! ## Whole numbers -/

theorem unsigned?_digitChars (n : ℕ) : unsigned? (digitChars n) = some (ofDecimal n 0) := by
  have read : unsigned? (digitChars n ++ []) = _ := unsigned?_whole (areDigits_digitChars n) (by simp)
  rw [List.append_nil] at read
  rw [read, digitsValue_digitChars]
  rfl

theorem isNumeral_digitChars (n : ℕ) : IsNumeral (digitChars n) := by
  have numeral : IsNumeral (digitChars n ++ []) := isNumeral_append (areDigits_digitChars n) (by simp)
  rwa [List.append_nil] at numeral

theorem toString_whole (n : ℤ) : toString n =
    String.ofList
      (if decide (n < 0) then '-' :: digitChars n.natAbs else digitChars n.natAbs) := by
  cases n with
  | ofNat k =>
    rw [if_neg (by simp)]
    exact Nat.toString_eq_ofList_toDigits
  | negSucc k =>
    have digits : Nat.repr (k + 1) = String.ofList (digitChars (k + 1)) :=
      Nat.toString_eq_ofList_toDigits
    rw [if_pos (by simp)]
    show "-" ++ Nat.repr (k + 1) = _
    rw [digits, ← String.ofList_append]
    rfl

/-- A whole number is read as the double nearest to it. -/
theorem ofText?_whole (n : ℤ) :
    ofText? (toString n) =
      some (if decide (n < 0) then -ofDecimal n.natAbs 0 else ofDecimal n.natAbs 0) := by
  rw [toString_whole, ofText?_signed (isNumeral_digitChars _), unsigned?_digitChars]
  rfl

theorem beq_self_or_isNaN (x : Float) : (x == x) = true ∨ x.isNaN = true ∧ x.isNaN = true := by
  rw [Float.beq_self_iff, Float.isNaN_eq_decide_eq_nan, decide_eq_true_eq, and_self]
  exact (em _).symm

theorem zero_beq_zero (negative : Bool) : ((0.0 : Float) == if negative then -0.0 else 0.0) = true := by
  cases negative <;> decide +kernel

/-- A double that is a whole number, in parts. -/
theorem natAbs_of_whole? {x : Float} {negative : Bool} {m : ℕ} {q n : ℤ}
    (finite : meaning x = .finite negative m q) (whole : whole? x = some n) :
    (n.natAbs : ℚ) = m * 2 ^ q ∧ (0 < m → decide (n < 0) = negative) := by
  have value := (whole?_eq_some_iff finite).1 whole
  have power : (0 : ℚ) < 2 ^ q := by positivity
  have nonneg : 0 ≤ (m : ℚ) * 2 ^ q := by positivity
  rw [Nat.cast_natAbs, Int.cast_abs, ← value]
  cases negative with
  | true =>
    rw [if_pos rfl] at value ⊢
    refine ⟨by rw [abs_neg, abs_of_nonneg nonneg], fun some => decide_eq_true ?_⟩
    have below : (n : ℚ) < 0 := by
      have positive : 0 < (m : ℚ) * 2 ^ q := by positivity
      linarith
    exact_mod_cast below
  | false =>
    rw [if_neg Bool.false_ne_true] at value ⊢
    refine ⟨abs_of_nonneg nonneg, fun _ => decide_eq_false ?_⟩
    rw [value] at nonneg
    exact not_lt.2 (by exact_mod_cast nonneg)

theorem roundsTo_natAbs {m : ℕ} {q n : ℤ} (size : (n.natAbs : ℚ) = m * 2 ^ q) :
    RoundsTo (n.natAbs * 10 ^ (0 : ℤ)) m q := by
  rw [zpow_zero, mul_one, size]
  exact roundsTo_self m q

/-- A text that drops the fraction of whole numbers denotes an equal double. -/
theorem ofText?_plainText (x : Float) :
    ∃ y, ofText? (plainText x) = some y ∧ ((y == x) = true ∨ y.isNaN = true ∧ x.isNaN = true) := by
  unfold plainText
  cases whole : whole? x with
  | none => exact ⟨x, ofText?_text x, beq_self_or_isNaN x⟩
  | some n =>
    refine ⟨_, ofText?_whole n, ?_⟩
    cases finite : meaning x with
    | nan =>
      rw [whole?, finite] at whole
      cases whole
    | infinite negative =>
      rw [whole?, finite] at whole
      cases whole
    | finite negative m q =>
      obtain ⟨size, sign⟩ := natAbs_of_whole? finite whole
      by_cases zero : m = 0
      · -- a zero loses its sign
        have none : n = 0 := by
          rw [zero, Nat.cast_zero, zero_mul, Nat.cast_eq_zero, Int.natAbs_eq_zero] at size
          exact size
        rw [zero] at finite
        rw [none, ← eq_zero_of_meaning finite]
        exact .inl (zero_beq_zero negative)
      · have positive := Nat.pos_of_ne_zero zero
        rw [sign positive, signed_ofDecimal finite positive (roundsTo_natAbs size)]
        exact beq_self_or_isNaN x

end StockFlow.Number
