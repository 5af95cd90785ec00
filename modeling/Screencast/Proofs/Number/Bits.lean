import Screencast.Proofs.Number.Machine

/-!
The machine's numbers and their bits. A number is told by its sign, its mantissa and its exponent,
so two of one value other than nought are the same, and what the fields of the bits say is that
value.
-/

namespace Screencast

open Float.Model Float.Model.UnpackedFloat

namespace Rounding

variable {f g : UnpackedFloat} {a : Rat} {m n : Nat} {d e : Int}

/-- No number is written in two ways. -/
theorem Canonical.unique (canonical : Canonical m e) (canonical' : Canonical n d)
    (same : (m : Rat) * 2 ^ e = n * 2 ^ d) : m = n ∧ e = d := by
  have exponents : e = d := by
    rcases lt_trichotomy e d with less | equal | more
    · exact absurd same (lt_of_exponent_lt canonical canonical' less).ne
    · exact equal
    · exact absurd same (lt_of_exponent_lt canonical' canonical more).ne'
  subst exponents
  have mantissas : (m : Rat) = n := mul_right_cancel₀ (two_zpow_pos e).ne' same
  exact ⟨by exact_mod_cast mantissas, rfl⟩

theorem Rounded.unique (left : Rounded f a) (right : Rounded g a) (nonzero : a ≠ 0) : f = g := by
  cases left with
  | zero s => exact absurd rfl nonzero
  | @finite s m e pos canonical =>
    have positive := pos_of_mantissa pos e
    generalize value : signed s (m * 2 ^ e) = b at right nonzero
    cases right with
    | zero t => exact absurd rfl nonzero
    | @finite t n d pos' canonical' =>
      have positive' := pos_of_mantissa pos' d
      cases s <;> cases t <;> simp only [signed] at value
      · obtain ⟨rfl, rfl⟩ := canonical.unique canonical' (neg_injective value)
        rfl
      · linarith
      · linarith
      · obtain ⟨rfl, rfl⟩ := canonical.unique canonical' value
        rfl

theorem Sign.toBitVec_ofBitVec (bit : BitVec 1) : (Sign.ofBitVec bit).toBitVec = bit := by
  revert bit
  decide

theorem packComponents_unpack (bits : BitVec Format.binary64.numBits) :
    packComponents Format.binary64 (Sign.ofBitVec (unpackSign bits)) (unpackExponent bits)
      (unpackMantissa bits) = bits := by
  unfold packComponents
  rw [Sign.toBitVec_ofBitVec]
  apply BitVec.eq_of_getLsbD_eq
  intro i inside
  simp only [unpackSign, unpackExponent, unpackMantissa, BitVec.getLsbD_append,
    BitVec.getLsbD_cast, BitVec.getLsbD_extractLsb]
  grind

/-- What a number is unpacked to is packed into the same bits, and there is but one NaN. -/
theorem pack_unpack {bits : BitVec Format.binary64.numBits} (valid : Format.binary64.Valid bits) :
    pack Format.binary64 (unpack Format.binary64 bits) = bits := by
  have parts := packComponents_unpack bits
  have nan := valid.eq_packedNaN
  generalize Sign.ofBitVec (unpackSign bits) = s at parts
  generalize unpackExponent bits = exponent at parts nan
  generalize unpackMantissa bits = mantissa at parts nan
  have small : exponent.toNat < 2 ^ 11 := exponent.isLt
  have small' : mantissa.toNat < 2 ^ 52 := mantissa.isLt
  rw [← parts, unpack_packComponents]
  split
  · next top =>
    split
    · next nought =>
      rw [top, nought]
      rfl
    · next payload =>
      rw [parts]
      exact (nan top payload).symm
  · next notTop =>
    have top : exponent.toNat ≠ 2047 := fun same => notTop (BitVec.eq_of_toNat_eq same)
    split
    · next bottom =>
      split
      · next nought =>
        rw [bottom, nought]
        rfl
      · next some =>
        have positive : mantissa.toNat ≠ 0 := fun zero => some (BitVec.eq_of_toNat_eq zero)
        have log : mantissa.toNat.log2 < 52 := (Nat.log2_lt positive).mpr small'
        rw [pack_finite, if_neg, if_neg (by omega), BitVec.ofNat_toNat, bottom]
        · rfl
        · have zero : exponent.toNat = 0 := congrArg BitVec.toNat bottom
          omega
    · next notBottom =>
      have bottom : exponent.toNat ≠ 0 := fun same => notBottom (BitVec.eq_of_toNat_eq same)
      have full := toNat_one_append mantissa
      have log : (1#1 ++ mantissa).toNat.log2 = 52 := by
        rw [full]
        exact (Nat.log2_eq_iff (by omega)).mpr ⟨by omega, by omega⟩
      have biased : ((exponent.toNat : Int) - 1075 + 1075).toNat = exponent.toNat := by omega
      have mantissas : BitVec.ofNat 52 (1#1 ++ mantissa).toNat = mantissa := by
        apply BitVec.eq_of_toNat_eq
        rw [BitVec.toNat_ofNat, full]
        omega
      rw [pack_finite, biased, if_neg (by omega), log, if_pos rfl, BitVec.ofNat_toNat, mantissas]
      rfl

end Rounding

namespace Machine

open Rounding

variable {x y : Float} {a : Rat}

theorem eq_of_unpack (same : x.toModel.unpack = y.toModel.unpack) : x = y := by
  have bits : x.toModel.toBits.toBitVec = y.toModel.toBits.toBitVec :=
    (pack_unpack x.toModel.valid).symm.trans
      ((congrArg (pack Format.binary64) same).trans (pack_unpack y.toModel.valid))
  obtain ⟨⟨⟨left⟩, valid⟩⟩ := x
  obtain ⟨⟨⟨right⟩, valid'⟩⟩ := y
  cases (bits : left = right)
  rfl

theorem Stands.unique (left : Stands x a) (right : Stands y a) (nonzero : a ≠ 0) : x = y :=
  eq_of_unpack (Rounded.unique left right nonzero)

def signOf (negative : Bool) : Sign :=
  if negative then .negative else .positive

theorem toNat_unpackMantissa (bits : BitVec Format.binary64.numBits) :
    (unpackMantissa bits).toNat = bits.toNat % 2 ^ 52 := by
  simp [unpackMantissa]

theorem ofBitVec_unpackSign (bits : BitVec Format.binary64.numBits) :
    Sign.ofBitVec (unpackSign bits) = signOf (2 ^ 63 ≤ bits.toNat) := by
  have size : bits.toNat < 2 ^ 64 := bits.isLt
  have top : (unpackSign bits).toNat = bits.toNat / 2 ^ 63 := by
    simp only [unpackSign, BitVec.toNat_cast, BitVec.extractLsb_toNat, Nat.shiftRight_eq_div_pow]
    omega
  unfold Sign.ofBitVec signOf
  by_cases negative : 2 ^ 63 ≤ bits.toNat
  · rw [if_neg, if_pos (by simpa using negative)]
    intro zero
    have none : (unpackSign bits).toNat = 0 := congrArg BitVec.toNat zero
    omega
  · rw [if_pos, if_neg (by simpa using negative)]
    apply BitVec.eq_of_toNat_eq
    rw [top]
    exact Nat.div_eq_of_lt (by omega)

variable {negative : Bool} {exponent mantissa : Nat}

def word (x : Float) : BitVec Format.binary64.numBits :=
  x.toModel.toBits.toBitVec

section Fields

variable (fields : Binary.fields x = (negative, exponent, mantissa))
include fields

theorem fields_bits : signOf negative = Sign.ofBitVec (unpackSign (word x)) ∧
    exponent = (unpackExponent (word x)).toNat ∧
    mantissa = (unpackMantissa (word x)).toNat := by
  obtain ⟨rfl, rest⟩ := Prod.mk.inj fields
  obtain ⟨rfl, rfl⟩ := Prod.mk.inj rest
  rw [ofBitVec_unpackSign, toNat_unpackExponent, toNat_unpackMantissa]
  exact ⟨rfl, rfl, rfl⟩

theorem fields_lt : exponent < 2 ^ 11 ∧ mantissa < 2 ^ 52 := by
  obtain ⟨-, rfl, rfl⟩ := fields_bits fields
  exact ⟨BitVec.isLt _, BitVec.isLt _⟩

theorem unpack_of_top (top : exponent = 2047) :
    x.toModel.unpack = if mantissa = 0 then .infinity (signOf negative) else .notANumber := by
  obtain ⟨sign, rfl, rfl⟩ := fields_bits fields
  have highest : unpackExponent (word x) = -1#_ := BitVec.eq_of_toNat_eq top
  change UnpackedFloat.unpack Format.binary64 (word x) = _
  unfold UnpackedFloat.unpack
  dsimp only
  rw [if_pos highest, sign]
  by_cases nought : unpackMantissa (word x) = 0#_
  · have zero : (unpackMantissa (word x)).toNat = 0 := congrArg BitVec.toNat nought
    rw [if_pos nought, if_pos zero]
  · have positive : (unpackMantissa (word x)).toNat ≠ 0 :=
      fun zero => nought (BitVec.eq_of_toNat_eq zero)
    rw [if_neg nought, if_neg positive]

theorem unpack_of_nought (bottom : exponent = 0) (nought : mantissa = 0) :
    x.toModel.unpack = .zero (signOf negative) := by
  obtain ⟨sign, rfl, rfl⟩ := fields_bits fields
  have lowest : unpackExponent (word x) = 0#_ := BitVec.eq_of_toNat_eq bottom
  have empty : unpackMantissa (word x) = 0#_ := BitVec.eq_of_toNat_eq nought
  change UnpackedFloat.unpack Format.binary64 (word x) = _
  unfold UnpackedFloat.unpack
  dsimp only
  rw [lowest, if_neg (by decide), if_pos rfl, dif_pos empty, sign]

theorem unpack_of_finite (notTop : exponent ≠ 2047)
    (positive : 0 < (Binary.scaled exponent mantissa).1) :
    x.toModel.unpack = .finite (signOf negative) (Binary.scaled exponent mantissa).1
      ((Binary.scaled exponent mantissa).2 - 1074) positive := by
  obtain ⟨sign, rfl, rfl⟩ := fields_bits fields
  have bias : Format.binary64.exponentBias = 1023 := rfl
  have inside : unpackExponent (word x) ≠ -1#_ := fun top => notTop (congrArg BitVec.toNat top)
  change UnpackedFloat.unpack Format.binary64 (word x) = _
  unfold UnpackedFloat.unpack
  dsimp only
  rw [if_neg inside, sign]
  unfold Binary.scaled at positive ⊢
  by_cases bottom : unpackExponent (word x) = 0#_
  · have zero : (unpackExponent (word x)).toNat = 0 := congrArg BitVec.toNat bottom
    simp only [zero, if_true] at positive ⊢
    have filled : ¬ unpackMantissa (word x) = 0#_ :=
      fun nought => positive.ne' (congrArg BitVec.toNat nought)
    rw [if_pos bottom, dif_neg filled]
    rfl
  · have above : (unpackExponent (word x)).toNat ≠ 0 :=
      fun zero => bottom (BitVec.eq_of_toNat_eq zero)
    rw [if_neg bottom]
    simp only [if_neg above, toNat_one_append, bias]
    congr 1
    push_cast
    omega

end Fields

theorem scaled_pos (some : ¬ (exponent = 0 ∧ mantissa = 0)) :
    0 < (Binary.scaled exponent mantissa).1 := by
  have full := twoTo_pos 52
  unfold Binary.scaled
  split
  · next zero =>
    exact Nat.pos_of_ne_zero fun none => some ⟨zero, none⟩
  · exact Nat.add_pos_left full _

theorem stands_of_fields (fields : Binary.fields x = (negative, exponent, mantissa))
    (notTop : exponent ≠ 2047) (positive : 0 < (Binary.scaled exponent mantissa).1) :
    Stands x (signed (signOf negative) ((Binary.scaled exponent mantissa).1 *
      2 ^ (((Binary.scaled exponent mantissa).2 : Int) - 1074))) ∧
    Canonical (Binary.scaled exponent mantissa).1
      (((Binary.scaled exponent mantissa).2 : Int) - 1074) := by
  have range := inRange x
  rw [unpack_of_finite fields notTop positive] at range
  unfold Stands
  rw [unpack_of_finite fields notTop positive]
  exact ⟨Rounded.finite _ positive range.1, range.1⟩

end Machine

end Screencast
