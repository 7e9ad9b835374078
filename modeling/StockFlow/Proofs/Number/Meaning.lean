import StockFlow.Number.Text
import StockFlow.Proofs.Quantity.DoubleParts

/-!
# What doubles stand for

The meaning of a double is told by its parts (`meaning_eq`) and tells them: two doubles that stand
for the same are the same (`eq_of_meaning`), also where that is zero with a sign. A finite double
stands for a mantissa and an exponent of which one pair in each binade is canonical, and the bits of
a canonical pair are those of a double that stands for it (`meaning_bitsOf`). Turning the sign keeps
the rest (`meaning_neg`, `meaning_abs`). A double counts as a whole number just if its value is one
(`whole?_eq_some_iff`).
-/

namespace StockFlow.Number

open Float.Model.UnpackedFloat
open Float.Model (UnpackedFloat Format)

/-! ## Fields of a word -/

theorem toNat_unpackExponent (b : BitVec Format.binary64.numBits) :
    (unpackExponent b).toNat = b.toNat / hiddenBit % 2048 := by
  rw [unpackExponent_def, BitVec.extractLsb'_toNat, Nat.shiftRight_eq_div_pow]
  rfl

theorem toNat_unpackMantissa (b : BitVec Format.binary64.numBits) :
    (unpackMantissa b).toNat = b.toNat % hiddenBit := by
  rw [unpackMantissa_def, BitVec.extractLsb'_toNat, Nat.shiftRight_eq_div_pow]
  simp only [pow_zero, Nat.div_one]
  rfl

theorem toNat_unpackSign (b : BitVec Format.binary64.numBits) :
    (unpackSign b).toNat = b.toNat / .pow 2 63 % 2 := by
  rw [unpackSign_def, BitVec.extractLsb'_toNat, Nat.shiftRight_eq_div_pow]
  rfl

/-! ## Meaning and parts -/

/-- Whether a sign is that of negative numbers. -/
def isNegative : Sign → Bool
  | .positive => false
  | .negative => true

/-- What a double stands for, told from its parts. -/
def Meaning.ofParts : UnpackedFloat → Meaning
  | .notANumber => .nan
  | .infinity sign => .infinite (isNegative sign)
  | .zero sign => .finite (isNegative sign) 0 (-1074)
  | .finite sign mantissa exponent _ => .finite (isNegative sign) mantissa exponent

theorem isNegative_ofBitVec (b : BitVec 1) : isNegative (.ofBitVec b) = decide (b.toNat = 1) := by
  revert b
  decide

theorem Meaning.ofBits_toNat (b : BitVec Format.binary64.numBits) :
    Meaning.ofBits b.toNat = .ofParts (unpack .binary64 b) := by
  have sign : decide (b.toNat / .pow 2 63 % 2 = 1) = isNegative (.ofBitVec (unpackSign b)) := by
    rw [isNegative_ofBitVec, toNat_unpackSign]
  have last : b.toNat / hiddenBit % 2048 = 2047 ↔ unpackExponent b = -1#_ := by
    rw [← toNat_unpackExponent, ← BitVec.toNat_inj]
    exact Iff.rfl
  have least : b.toNat / hiddenBit % 2048 = 0 ↔ unpackExponent b = 0#_ := by
    rw [← toNat_unpackExponent, ← BitVec.toNat_inj]
    exact Iff.rfl
  have nothing : b.toNat % hiddenBit = 0 ↔ unpackMantissa b = 0#_ := by
    rw [← toNat_unpackMantissa, ← BitVec.toNat_inj]
    exact Iff.rfl
  have whole : (1#1 ++ unpackMantissa b).toNat = hiddenBit + b.toNat % hiddenBit := by
    rw [BitVec.toNat_append, ← Nat.shiftLeft_add_eq_or_of_lt (BitVec.isLt _), toNat_unpackMantissa]
    rfl
  unfold Meaning.ofBits unpack
  simp only [sign, last, least, nothing]
  split
  · split <;> rfl
  · split
    · rename_i least
      split
      · rename_i empty
        rw [nothing.2 empty]
        rfl
      · rw [← toNat_unpackMantissa, least]
        rfl
    · simp only [Meaning.ofParts, whole, toNat_unpackExponent]
      rfl

theorem meaning_eq (x : Float) : meaning x = .ofParts (parts x) :=
  Meaning.ofBits_toNat _

/-! ## Bits and meaning -/

theorem unpack_of_isNaNBits {b : BitVec Format.binary64.numBits} (nan : isNaNBits b = true) :
    unpack .binary64 b = .notANumber := by
  obtain ⟨last, something⟩ := of_decide_eq_true nan
  unfold unpack
  simp only
  rw [if_pos last, if_neg something]

/-- What is taken apart is packed again, unless it is no number. -/
theorem pack_unpack_of_number {b : BitVec Format.binary64.numBits}
    (number : unpack .binary64 b ≠ .notANumber) : pack .binary64 (unpack .binary64 b) = b := by
  rw [pack_unpack, if_neg fun nan => number (unpack_of_isNaNBits nan)]

theorem hiddenBit_eq : hiddenBit = 4503599627370496 :=
  rfl

theorem infinityBits_eq : infinityBits = 9218868437227405312 :=
  rfl

/-- Bits up to those of infinity stand for a number. -/
theorem Meaning.ofBits_ne_nan {bits : Nat} (small : bits ≤ infinityBits) : ofBits bits ≠ .nan := by
  unfold ofBits
  simp only
  split
  · rename_i last
    rw [if_pos]
    · exact nofun
    · rw [infinityBits_eq] at small
      rw [hiddenBit_eq] at *
      omega
  · split <;> exact nofun

theorem meaning_ofBits {bits : Nat} (small : bits ≤ infinityBits) :
    meaning (.ofBits (.ofNat bits)) = .ofBits bits := by
  have same : (UInt64.ofNat bits).toNat = bits :=
    UInt64.toNat_ofNat_of_lt' (lt_of_le_of_lt small (by decide))
  have number : unpack .binary64 (UInt64.ofNat bits).toBitVec ≠ .notANumber := by
    intro nan
    have unread := Meaning.ofBits_toNat (UInt64.ofNat bits).toBitVec
    rw [nan] at unread
    exact Meaning.ofBits_ne_nan small (same ▸ unread)
  have kept : (Float.ofBits (.ofNat bits)).toBits = .ofNat bits :=
    congrArg UInt64.ofBitVec (pack_unpack_of_number number)
  rw [meaning, kept, same]

theorem isNegative_inj {sign sign' : Sign} (same : isNegative sign = isNegative sign') :
    sign = sign' := by
  cases sign <;> cases sign' <;> first | rfl | cases same

theorem Meaning.ofParts_inj {u v : UnpackedFloat} (same : ofParts u = ofParts v) : u = v := by
  cases u <;> cases v <;> simp only [ofParts, infinite.injEq, finite.injEq, reduceCtorEq] at same
  case notANumber.notANumber => rfl
  case infinity.infinity => rw [isNegative_inj same]
  case zero.zero => rw [isNegative_inj same.1]
  case zero.finite some => exact absurd same.2.1 some.ne
  case finite.zero some _ => exact absurd same.2.1 some.ne'
  case finite.finite =>
    obtain ⟨sign, rfl, rfl⟩ := same
    rw [isNegative_inj sign]

/-- A double is known by what it stands for. -/
theorem eq_of_meaning {x y : Float} (same : meaning x = meaning y) : x = y := by
  rw [meaning_eq, meaning_eq] at same
  have packed : ∀ x : Float, pack .binary64 (parts x) = x.toModel.toBits.toBitVec := fun x =>
    pack_unpack_of_valid x.toModel.valid
  refine eq_of_bits ?_
  rw [← packed, ← packed, Meaning.ofParts_inj same]

/-! ## Canonical pairs -/

/-- A mantissa and an exponent as doubles have them: the mantissa has its highest bit, unless the
exponent is the least. -/
structure IsCanonical (m : ℕ) (q : ℤ) : Prop where
  least : -1074 ≤ q
  most : q ≤ 971
  lt : m < 2 * hiddenBit
  full : q = -1074 ∨ hiddenBit ≤ m

/-- The exponent and fraction fields of the double with a canonical pair. -/
def bitsOf (m : ℕ) (q : ℤ) : ℕ :=
  (q + 1074).toNat * hiddenBit + m

theorem IsCanonical.bitsOf_lt {m : ℕ} {q : ℤ} (canonical : IsCanonical m q) :
    bitsOf m q < infinityBits := by
  obtain ⟨least, most, lt, -⟩ := canonical
  rw [bitsOf, infinityBits_eq]
  rw [hiddenBit_eq] at *
  omega

theorem IsCanonical.ofBits {m : ℕ} {q : ℤ} (canonical : IsCanonical m q) :
    Meaning.ofBits (bitsOf m q) = .finite false m q := by
  have fits := canonical.bitsOf_lt
  obtain ⟨least, most, lt, full⟩ := canonical
  have sign : bitsOf m q / .pow 2 63 % 2 = 0 := by
    rw [Nat.div_eq_of_lt (lt_trans fits (by decide))]
  unfold Meaning.ofBits
  simp only [sign]
  by_cases short : m < hiddenBit
  · have lowest := full.resolve_right (Nat.not_le_of_lt short)
    have same : bitsOf m q = m := by
      rw [bitsOf, lowest]
      simp
    rw [same, Nat.div_eq_of_lt short, Nat.mod_eq_of_lt short, lowest]
    rfl
  · obtain ⟨fraction, rfl⟩ := Nat.exists_eq_add_of_le (Nat.le_of_not_lt short)
    have small : fraction < hiddenBit := by omega
    have same : bitsOf (hiddenBit + fraction) q =
        hiddenBit * ((q + 1074).toNat + 1) + fraction := by
      rw [bitsOf]
      ring
    have field : bitsOf (hiddenBit + fraction) q / hiddenBit % 2048 = (q + 1074).toNat + 1 := by
      rw [same, Nat.mul_add_div (by decide), Nat.div_eq_of_lt small]
      omega
    have rest : bitsOf (hiddenBit + fraction) q % hiddenBit = fraction := by
      rw [same, Nat.mul_add_mod, Nat.mod_eq_of_lt small]
    rw [field, rest, if_neg (by omega), if_neg (by omega)]
    congr 1
    omega

/-- The pair of a finite double is canonical. -/
theorem isCanonical_of_ofBits {bits m : ℕ} {negative : Bool} {q : ℤ}
    (finite : Meaning.ofBits bits = .finite negative m q) : IsCanonical m q := by
  have small : bits % hiddenBit < hiddenBit := Nat.mod_lt _ (by decide)
  unfold Meaning.ofBits at finite
  simp only at finite
  split at finite
  · split at finite <;> cases finite
  · split at finite
    · cases finite
      exact ⟨le_rfl, by decide, by omega, .inl rfl⟩
    · cases finite
      exact ⟨by omega, by omega, by omega, .inr (Nat.le_add_right _ _)⟩

theorem meaning_bitsOf {m : ℕ} {q : ℤ} (canonical : IsCanonical m q) :
    meaning (.ofBits (.ofNat (bitsOf m q))) = .finite false m q := by
  rw [meaning_ofBits canonical.bitsOf_lt.le, canonical.ofBits]

/-! ## Other signs -/

/-- The same parts with a given sign. -/
def withSign (sign : Sign) : UnpackedFloat → UnpackedFloat
  | .notANumber => .notANumber
  | .infinity _ => .infinity sign
  | .zero _ => .zero sign
  | .finite _ mantissa exponent positive => .finite sign mantissa exponent positive

/-- Parts that a double has can be packed with another sign. -/
theorem parts_ofParts_withSign (sign : Sign) (x : Float) :
    parts (ofParts (withSign sign (parts x))) = withSign sign (parts x) := by
  let b : BitVec Format.binary64.numBits := x.toModel.toBits.toBitVec
  let signed : BitVec Format.binary64.numBits :=
    packComponents .binary64 sign (unpackExponent b) (unpackMantissa b)
  have known : unpack .binary64 signed = withSign sign (parts x) := by
    show unpack .binary64 signed = withSign sign (unpack .binary64 b)
    unfold unpack
    simp only [signed, unpackSign_packComponents, unpackExponent_packComponents,
      unpackMantissa_packComponents, Sign.ofBitVec_toBitVec]
    split
    · split <;> rfl
    · split
      · split <;> rfl
      · rfl
  show unpack .binary64 (pack .binary64 (withSign sign (parts x))) = _
  by_cases nan : unpack .binary64 signed = .notANumber
  · rw [← known, nan]
    exact unpack_packedNaN
  · rw [← known, pack_unpack_of_number nan]

theorem meaning_neg {x : Float} {negative : Bool} {m : Nat} {q : Int}
    (finite : meaning x = .finite negative m q) : meaning (-x) = .finite (!negative) m q := by
  have turned : ∃ sign, (parts x).neg = withSign sign (parts x) := by
    cases parts x with
    | notANumber => exact ⟨.positive, rfl⟩
    | infinity sign | zero sign | finite sign => exact ⟨-sign, rfl⟩
  obtain ⟨sign, turned⟩ := turned
  have same : parts (-x) = (parts x).neg := by
    show parts (ofParts (parts x).neg) = _
    rw [turned, parts_ofParts_withSign]
  rw [meaning_eq] at finite ⊢
  rw [same]
  revert finite
  cases parts x with
  | notANumber | infinity sign => exact nofun
  | zero sign | finite sign =>
    cases sign <;>
    · intro finite
      cases finite
      rfl

theorem meaning_abs {x : Float} {negative : Bool} {m : Nat} {q : Int}
    (finite : meaning x = .finite negative m q) : meaning x.abs = .finite false m q := by
  have turned : (parts x).abs = withSign .positive (parts x) := by
    cases parts x <;> rfl
  have same : parts x.abs = (parts x).abs := by
    show parts (ofParts (parts x).abs) = _
    rw [turned, parts_ofParts_withSign]
  rw [meaning_eq] at finite ⊢
  rw [same]
  revert finite
  cases parts x with
  | notANumber | infinity sign => exact nofun
  | zero sign | finite sign =>
    intro finite
    cases finite
    rfl

theorem isNaN_iff {x : Float} : x.isNaN = true ↔ meaning x = .nan := by
  rw [meaning_eq]
  show (parts x).isNaN = true ↔ _
  cases parts x <;> simp [UnpackedFloat.isNaN, Meaning.ofParts]

theorem isInf_iff {x : Float} : x.isInf = true ↔ ∃ negative, meaning x = .infinite negative := by
  rw [meaning_eq]
  show (parts x).isInf = true ↔ _
  cases parts x <;> simp [UnpackedFloat.isInf, Meaning.ofParts]

/-! ## Whole numbers -/

/-- The whole number that a mantissa and an exponent make up, if they do. -/
theorem wholeSize_eq_some_iff (m : ℕ) (q : ℤ) (k : ℕ) :
    (if 0 ≤ q then some (m * .pow 2 q.toNat)
      else if m % .pow 2 (-q).toNat = 0 then some (m / .pow 2 (-q).toNat) else none) = some k ↔
        (m : ℚ) * 2 ^ q = k := by
  split
  · rename_i nonneg
    have power : (2 : ℚ) ^ q = ((Nat.pow 2 q.toNat : ℕ) : ℚ) := by
      rw [Nat.pow_eq, Nat.cast_pow, ← zpow_natCast, Int.toNat_of_nonneg nonneg]
      rfl
    rw [power, Option.some.injEq]
    exact_mod_cast Iff.rfl
  · rename_i negative
    have power : (2 : ℚ) ^ q = ((Nat.pow 2 (-q).toNat : ℕ) : ℚ)⁻¹ := by
      rw [Nat.pow_eq, Nat.cast_pow, ← zpow_natCast, Int.toNat_of_nonneg (by omega), zpow_neg,
        inv_inv]
      rfl
    have unit : 0 < Nat.pow 2 (-q).toNat := Nat.pow_pos two_pos
    generalize Nat.pow 2 (-q).toNat = u at *
    have parts : (m : ℚ) * 2 ^ q = k ↔ m = k * u := by
      rw [power, ← div_eq_mul_inv, div_eq_iff (by exact_mod_cast unit.ne')]
      exact_mod_cast Iff.rfl
    rw [parts]
    split
    · rename_i divides
      rw [Option.some.injEq, Nat.div_eq_iff_eq_mul_left unit (Nat.dvd_of_mod_eq_zero divides)]
    · rename_i rest
      refine ⟨nofun, fun same => absurd ?_ rest⟩
      rw [same, Nat.mul_mod_left]

/-- A finite double is a whole number just if its value is. -/
theorem whole?_eq_some_iff {x : Float} {negative : Bool} {m : ℕ} {q n : ℤ}
    (finite : meaning x = .finite negative m q) :
    whole? x = some n ↔ (if negative then -((m : ℚ) * 2 ^ q) else m * 2 ^ q) = n := by
  have signed : whole? x = some n ↔ ∃ k : ℕ, (if 0 ≤ q then some (m * .pow 2 q.toNat)
      else if m % .pow 2 (-q).toNat = 0 then some (m / .pow 2 (-q).toNat) else none) = some k ∧
        (if negative then -(k : ℤ) else k) = n := by
    rw [whole?, finite, Meaning.whole?]
    simp only [Option.map_eq_some_iff, Option.pure_def, Option.bind_eq_bind,
      Option.bind_eq_some_iff, Option.some.injEq]
    constructor
    · rintro ⟨_, ⟨k, known, rfl⟩, same⟩
      exact ⟨k, known, same⟩
    · rintro ⟨k, known, same⟩
      exact ⟨k, ⟨k, known, rfl⟩, same⟩
  have nonneg : 0 ≤ (m : ℚ) * 2 ^ q := by positivity
  simp only [signed, wholeSize_eq_some_iff]
  constructor
  · rintro ⟨k, known, rfl⟩
    rw [known]
    split <;> push_cast <;> rfl
  · intro same
    obtain ⟨k, known⟩ : ∃ k : ℕ, (m : ℚ) * 2 ^ q = k := by
      refine ⟨n.natAbs, ?_⟩
      rw [Nat.cast_natAbs, Int.cast_abs, ← same]
      split
      · rw [abs_neg, abs_of_nonneg nonneg]
      · rw [abs_of_nonneg nonneg]
    refine ⟨k, known, ?_⟩
    rw [known] at same
    cases negative with
    | true =>
      rw [if_pos rfl] at same ⊢
      exact_mod_cast same
    | false =>
      rw [if_neg Bool.false_ne_true] at same ⊢
      exact_mod_cast same

end StockFlow.Number
