import Mathlib
import StockFlow.Quantity.Double

/-!
# Parts of doubles

An operation on doubles takes its operands apart, into a sign, a mantissa and an exponent, and packs
the result into bits again. What parts a word can have is said once (`unpacks`), and how a finite
number is packed (`pack_finite`). Infinity and what is no number are the only doubles with their
parts (`parts_eq_infinity_iff`, `parts_eq_nan_iff`).
-/

namespace StockFlow.Number

open Float.Model.UnpackedFloat
open Float.Model (UnpackedFloat Format)

/-! ## Bits -/

theorem toBitVec_inj {sign sign' : Sign} (same : sign.toBitVec = sign'.toBitVec) :
    sign = sign' := by
  rw [← Sign.ofBitVec_toBitVec sign, same, Sign.ofBitVec_toBitVec]

/-- What a word is taken apart into. -/
inductive Unpacks (b : BitVec Format.binary64.numBits) : UnpackedFloat → Prop
  | infinity {sign : Sign} (signed : unpackSign b = sign.toBitVec)
    (exponent : unpackExponent b = -1#_) (mantissa : unpackMantissa b = 0#_) :
    Unpacks b (.infinity sign)
  | notANumber (exponent : unpackExponent b = -1#_) (mantissa : unpackMantissa b ≠ 0#_) :
    Unpacks b .notANumber
  | zero {sign : Sign} (signed : unpackSign b = sign.toBitVec) : Unpacks b (.zero sign)
  | finite {sign : Sign} {mantissa : Nat} {exponent : Int} (signed : unpackSign b = sign.toBitVec)
    (exponent_le : exponent ≤ 971) (mantissa_lt : mantissa < 2 ^ 53) (some : 0 < mantissa) :
    Unpacks b (.finite sign mantissa exponent some)

theorem unpacks (b : BitVec Format.binary64.numBits) : Unpacks b (unpack .binary64 b) := by
  have signed : unpackSign b = (Sign.ofBitVec (unpackSign b)).toBitVec :=
    (Sign.toBitVec_ofBitVec _).symm
  unfold unpack
  simp only
  split
  · rename_i last
    split
    · rename_i nothing
      exact .infinity signed last nothing
    · rename_i something
      exact .notANumber last something
  · rename_i number
    have exponent_lt : (unpackExponent b).toNat < 2047 :=
      Nat.lt_of_le_of_ne (Nat.le_of_lt_succ (BitVec.isLt _))
        fun last => number (BitVec.eq_of_toNat_eq last)
    split
    · rename_i least
      split
      · exact .zero signed
      · refine .finite signed ?_ (Nat.lt_trans (BitVec.isLt _) (by decide)) _
        rw [least]
        decide
    · refine .finite signed ?_ (BitVec.isLt (1#1 ++ unpackMantissa b)) _
      show _ - (((1023 : Nat) : Int) + ((52 : Nat) : Int)) ≤ 971
      omega

/-- A finite number is packed with its sign, and as infinity only if its exponent is too large. -/
theorem pack_finite (sign : Sign) (mantissa : Nat) (exponent : Int) (some : 0 < mantissa) :
    unpackSign (pack .binary64 (.finite sign mantissa exponent some)) = sign.toBitVec ∧
      (unpackExponent (pack .binary64 (.finite sign mantissa exponent some)) = -1#_ →
        unpackMantissa (pack .binary64 (.finite sign mantissa exponent some)) = 0#_ ∧
          971 < exponent) := by
  unfold pack
  simp only
  split
  · rename_i large
    refine ⟨unpackSign_packComponents .., fun _ => ⟨unpackMantissa_packComponents, ?_⟩⟩
    change 2 ^ 11 ≤ (exponent + ((1023 : Nat) : Int) + ((52 : Nat) : Int)).toNat + 1 at large
    omega
  · rename_i fits
    split
    · refine ⟨unpackSign_packComponents .., fun last => ?_⟩
      rw [unpackExponent_packComponents] at last
      have last := congrArg BitVec.toNat last
      rw [BitVec.toNat_ofNat, Nat.mod_eq_of_lt (Nat.lt_of_succ_lt (Nat.lt_of_not_le fits))] at last
      rw [last] at fits
      exact absurd (by decide) fits
    · refine ⟨unpackSign_packComponents .., fun last => ?_⟩
      rw [unpackExponent_packComponents] at last
      exact absurd last (by decide)

/-! ## Doubles in parts -/

/-- The parts of a double. -/
def parts (x : Float) : UnpackedFloat :=
  x.toModel.unpack

/-- The double that has been packed from parts. -/
def ofParts (u : UnpackedFloat) : Float :=
  .ofModel (.pack u)

theorem eq_of_bits {x y : Float} (same : x.toModel.toBits.toBitVec = y.toModel.toBits.toBitVec) :
    x = y := by
  obtain ⟨⟨⟨b⟩, valid⟩⟩ := x
  obtain ⟨⟨⟨c⟩, valid'⟩⟩ := y
  cases same
  rfl

theorem unpacks_parts (x : Float) : Unpacks x.toModel.toBits.toBitVec (parts x) :=
  unpacks _

theorem eq_of_parts_infinity {x : Float} {sign : Sign} (same : parts x = .infinity sign) :
    x = ofParts (.infinity sign) := by
  have unpacked := unpacks_parts x
  rw [same] at unpacked
  cases unpacked with
  | infinity signed exponent mantissa =>
    -- a word is made up of the three components that it is taken apart into
    have whole := @packComponents_unpackSign_unpackExponent_unpackMantissa .binary64
      x.toModel.toBits.toBitVec
    rw [signed, Sign.ofBitVec_toBitVec, exponent, mantissa] at whole
    exact eq_of_bits whole.symm

theorem eq_of_parts_nan {x : Float} (same : parts x = .notANumber) :
    x = ofParts .notANumber := by
  have unpacked := unpacks_parts x
  rw [same] at unpacked
  cases unpacked with
  | notANumber exponent mantissa =>
    exact eq_of_bits (x.toModel.valid.eq_packedNaN exponent mantissa)

theorem infinity_eq : (Quantity.infinity : Float) = ofParts (.infinity .positive) := by
  decide +kernel

theorem nan_eq : (Quantity.nan : Float) = ofParts .notANumber := by
  decide +kernel

theorem parts_infinity : parts Quantity.infinity = .infinity .positive := by
  rw [infinity_eq]
  rfl

theorem parts_nan : parts Quantity.nan = .notANumber := by
  rw [nan_eq]
  rfl

theorem zero_eq : (Quantity.zero : Float) = ofParts (.zero .positive) := by
  decide +kernel

theorem parts_zero : parts Quantity.zero = .zero .positive := by
  rw [zero_eq]
  rfl

theorem parts_eq_infinity_iff {x : Float} : parts x = .infinity .positive ↔ x = Quantity.infinity := by
  constructor
  · intro same
    rw [infinity_eq, eq_of_parts_infinity same]
  · rintro rfl
    exact parts_infinity

theorem parts_eq_nan_iff {x : Float} : parts x = .notANumber ↔ x = Quantity.nan := by
  constructor
  · intro same
    rw [nan_eq, eq_of_parts_nan same]
  · rintro rfl
    exact parts_nan

end StockFlow.Number
