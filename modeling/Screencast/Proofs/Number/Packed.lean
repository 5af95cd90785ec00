import Mathlib
import Screencast.Proofs.Number.Arithmetic

/-!
The machine's numbers packed into their bits. What rounding leaves is read back from them, unless it
reaches the limit, where an infinity takes its place; and the order of the numbers is that of the
rationals they stand for.
-/

namespace Screencast.Rounding

open Float.Model Float.Model.UnpackedFloat

variable {f g : UnpackedFloat} {a b : Rat} {m n : Nat} {d e : Int}

/-- The rational a number stands for; an infinity stands for the limit of its side. -/
def value? : UnpackedFloat → Option Rat
  | .notANumber => none
  | .infinity s => some (signed s limit)
  | .zero _ => some 0
  | .finite s m e _ => some (signed s (m * 2 ^ e))

def InRange : UnpackedFloat → Prop
  | .finite _ m e _ => Canonical m e ∧ e ≤ 971
  | _ => True

theorem Rounded.value (rounded : Rounded f a) : value? f = some a := by
  cases rounded <;> rfl

theorem lt_limit (canonical : Canonical m e) (le : e ≤ 971) : (m : Rat) * 2 ^ e < limit := by
  have small : (m : Rat) < 2 ^ (53 : Int) := by exact_mod_cast canonical.1
  calc (m : Rat) * 2 ^ e < 2 ^ (53 : Int) * 2 ^ e :=
        mul_lt_mul_of_pos_right small (two_zpow_pos e)
    _ = 2 ^ (53 + e) := (two_zpow_add 53 e).symm
    _ ≤ 2 ^ (1024 : Int) := two_zpow_le (by omega)
    _ = limit := rfl

theorem limit_le (canonical : Canonical m e) (above : 971 < e) : limit ≤ (m : Rat) * 2 ^ e := by
  have full : (2 : Rat) ^ (52 : Int) ≤ m := by
    have places := canonical.2.2
    exact_mod_cast (by omega : 2 ^ 52 ≤ m)
  calc limit = 2 ^ (1024 : Int) := rfl
    _ ≤ 2 ^ (52 + e) := two_zpow_le (by omega)
    _ = 2 ^ (52 : Int) * 2 ^ e := two_zpow_add 52 e
    _ ≤ m * 2 ^ e := mul_le_mul_of_nonneg_right full (two_zpow_pos e).le

theorem toNat_unpackExponent (bits : BitVec Format.binary64.numBits) :
    (unpackExponent bits).toNat = bits.toNat / 2 ^ 52 % 2 ^ 11 := by
  simp [unpackExponent, Nat.shiftRight_eq_div_pow]

theorem toNat_one_append (v : BitVec 52) : (1#1 ++ v).toNat = 2 ^ 52 + v.toNat := by
  rw [BitVec.toNat_append, ← Nat.shiftLeft_add_eq_or_of_lt v.isLt]
  rfl

theorem unpack_inRange (bits : BitVec Format.binary64.numBits) :
    InRange (unpack Format.binary64 bits) := by
  have small : (unpackMantissa bits).toNat < 2 ^ 52 := (unpackMantissa bits).isLt
  have small' : (unpackExponent bits).toNat < 2 ^ 11 := (unpackExponent bits).isLt
  have bias : Format.binary64.exponentBias = 1023 := rfl
  unfold UnpackedFloat.unpack
  dsimp only
  split
  · split <;> trivial
  · next notTop =>
    split
    · next bottom =>
      have exponent : (unpackExponent bits).toNat = 0 := congrArg BitVec.toNat bottom
      split
      · trivial
      · rw [InRange, Canonical, exponent]
        omega
    · next notBottom =>
      have top : (unpackExponent bits).toNat ≠ 2047 := fun same =>
        notTop (BitVec.eq_of_toNat_eq same)
      have bottom : (unpackExponent bits).toNat ≠ 0 := fun same =>
        notBottom (BitVec.eq_of_toNat_eq same)
      have mantissa := toNat_one_append (unpackMantissa bits)
      rw [InRange, Canonical, mantissa]
      omega

theorem isFinite_unpack (bits : BitVec Format.binary64.numBits) :
    (unpack Format.binary64 bits).isFinite = true ↔ bits.toNat / 2 ^ 52 % 2 ^ 11 ≠ 2047 := by
  rw [← toNat_unpackExponent]
  unfold UnpackedFloat.unpack
  dsimp only
  split
  · next top =>
    have exponent : (unpackExponent bits).toNat = 2047 := congrArg BitVec.toNat top
    split <;> simp [UnpackedFloat.isFinite, exponent]
  · next notTop =>
    have exponent : (unpackExponent bits).toNat ≠ 2047 := fun same =>
      notTop (BitVec.eq_of_toNat_eq same)
    simp only [exponent, ne_eq, not_false_eq_true, iff_true]
    split
    · split <;> rfl
    · rfl

theorem unpack_packComponents (s : Sign) (exponent : BitVec 11) (mantissa : BitVec 52) :
    unpack Format.binary64 (packComponents Format.binary64 s exponent mantissa) =
      if exponent = -1#11 then if mantissa = 0#52 then .infinity s else .notANumber
      else if exponent = 0#11 then
        if nought : mantissa = 0#52 then .zero s
        else .finite s mantissa.toNat (exponent.toNat - 1075 + 1)
          (Nat.pos_of_ne_zero fun zero => nought (BitVec.eq_of_toNat_eq zero))
      else .finite s (1#1 ++ mantissa).toNat (exponent.toNat - 1075)
        (by rw [toNat_one_append]; omega) := by
  unfold UnpackedFloat.unpack
  simp only [unpackMantissa_packComponents, unpackExponent_packComponents,
    unpackSign_packComponents, Sign.ofBitVec_toBitVec]
  rfl

theorem unpack_pack_infinity (s : Sign) :
    unpack Format.binary64 (pack Format.binary64 (.infinity s)) = .infinity s := by
  change unpack Format.binary64 (packComponents Format.binary64 s (-1#11) 0#52) = _
  rw [unpack_packComponents, if_pos rfl, if_pos rfl]

theorem pack_finite (s : Sign) (pos : 0 < m) (e : Int) :
    pack Format.binary64 (.finite s m e pos) =
      if 2 ^ 11 ≤ (e + 1075).toNat + 1 then packedInfinity Format.binary64 s
      else if m.log2 + 1 = 53 then
        packComponents Format.binary64 s (BitVec.ofNat 11 (e + 1075).toNat) (BitVec.ofNat 52 m)
      else packComponents Format.binary64 s 0#11 (BitVec.ofNat 52 m) := by
  have biased : (e + Format.binary64.exponentBias
      + Format.binary64.mantissaBitsWithoutImplicit).toNat = (e + 1075).toNat :=
    congrArg Int.toNat (Int.add_assoc e 1023 52)
  unfold UnpackedFloat.pack
  rw [biased]
  rfl

theorem pack_above (s : Sign) (pos : 0 < m) (above : 971 < e) :
    pack Format.binary64 (.finite s m e pos) = pack Format.binary64 (.infinity s) := by
  rw [pack_finite, if_pos (by omega)]
  rfl

/-- A canonical number is read back from its bits. -/
theorem unpack_pack_finite (s : Sign) (pos : 0 < m) (canonical : Canonical m e) (le : e ≤ 971) :
    unpack Format.binary64 (pack Format.binary64 (.finite s m e pos)) = .finite s m e pos := by
  obtain ⟨small, low, places⟩ := canonical
  rw [pack_finite, if_neg (by omega)]
  by_cases full : 2 ^ 52 ≤ m
  · have log : m.log2 = 52 := (Nat.log2_eq_iff pos.ne').mpr ⟨full, small⟩
    have exponent : (BitVec.ofNat 11 (e + 1075).toNat).toNat = (e + 1075).toNat :=
      Nat.mod_eq_of_lt (by omega)
    have mantissa : (1#1 ++ BitVec.ofNat 52 m).toNat = m := by
      rw [toNat_one_append, BitVec.toNat_ofNat]
      omega
    rw [log, if_pos rfl, unpack_packComponents, if_neg, if_neg]
    · simp only [mantissa, exponent]
      congr 1
      omega
    · intro same
      have zero : (e + 1075).toNat = 0 := exponent.symm.trans (congrArg BitVec.toNat same)
      omega
    · intro same
      have top : (e + 1075).toNat = 2047 := exponent.symm.trans (congrArg BitVec.toNat same)
      omega
  · have lowest : e = -1074 := places.resolve_left full
    have log : m.log2 < 52 := (Nat.log2_lt pos.ne').mpr (by omega)
    have mantissa : (BitVec.ofNat 52 m).toNat = m := Nat.mod_eq_of_lt (by omega)
    rw [if_neg (by omega), unpack_packComponents, if_neg (by decide), if_pos rfl, dif_neg]
    · simp only [mantissa]
      congr 1
      rw [lowest]
      rfl
    · intro same
      have zero : m = 0 := mantissa.symm.trans (congrArg BitVec.toNat same)
      omega

theorem isFinite_of_pack
    (finite : (unpack Format.binary64 (pack Format.binary64 f)).isFinite = true) :
    f.isFinite = true := by
  cases f with
  | notANumber =>
    rw [UnpackedFloat.pack, unpack_packedNaN] at finite
    exact nomatch finite
  | infinity s =>
    rw [unpack_pack_infinity] at finite
    exact nomatch finite
  | zero s => rfl
  | finite s m e pos => rfl

/-- What is packed is read back with its value, or with the limit if it reaches that. -/
theorem Rounded.value_unpack_pack (rounded : Rounded f a) :
    value? (unpack Format.binary64 (pack Format.binary64 f)) = some (clamp a) := by
  have positive := limit_pos
  cases rounded with
  | zero s =>
    rw [UnpackedFloat.pack, unpack_packedZero, clamp_of_abs_le (by linarith) positive.le]
    rfl
  | @finite s m e pos canonical =>
    have nonneg := (pos_of_mantissa pos e).le
    by_cases le : e ≤ 971
    · have below := lt_limit canonical le
      rw [unpack_pack_finite s pos canonical le, clamp_of_abs_le]
      · rfl
      · cases s <;> simp only [signed] <;> linarith
      · cases s <;> simp only [signed] <;> linarith
    · have above := limit_le canonical (by omega)
      rw [pack_above s pos (by omega), unpack_pack_infinity]
      cases s with
      | negative => rw [signed, clamp_of_le_neg_limit (neg_le_neg above)]; rfl
      | positive => rw [signed, clamp_of_limit_le above]; rfl

theorem lt_of_exponent_lt (canonical : Canonical m e) (canonical' : Canonical n d) (less : e < d) :
    (m : Rat) * 2 ^ e < n * 2 ^ d := by
  have small : (m : Rat) < 2 ^ (53 : Int) := by exact_mod_cast canonical.1
  have full : (2 : Rat) ^ (52 : Int) ≤ n := by
    have places := canonical'.2.2
    have low := canonical.2.1
    exact_mod_cast (by omega : 2 ^ 52 ≤ n)
  calc (m : Rat) * 2 ^ e < 2 ^ (53 : Int) * 2 ^ e :=
        mul_lt_mul_of_pos_right small (two_zpow_pos e)
    _ = 2 ^ (53 + e) := (two_zpow_add 53 e).symm
    _ ≤ 2 ^ (52 + d) := two_zpow_le (by omega)
    _ = 2 ^ (52 : Int) * 2 ^ d := two_zpow_add 52 d
    _ ≤ n * 2 ^ d := mul_le_mul_of_nonneg_right full (two_zpow_pos d).le

theorem compare_magnitudes (canonical : Canonical m e) (canonical' : Canonical n d) :
    (compare e d).then (compare m n) = cmp ((m : Rat) * 2 ^ e) (n * 2 ^ d) := by
  rcases lt_trichotomy e d with less | rfl | more
  · rw [compare_lt_iff_lt.mpr less,
      (cmp_eq_lt_iff _ _).mpr (lt_of_exponent_lt canonical canonical' less)]
    rfl
  · rw [compare_eq_iff_eq.mpr rfl]
    rcases lt_trichotomy m n with less | rfl | more
    · have values : (m : Rat) * 2 ^ e < n * 2 ^ e :=
        mul_lt_mul_of_pos_right (by exact_mod_cast less) (two_zpow_pos e)
      rw [compare_lt_iff_lt.mpr less, (cmp_eq_lt_iff _ _).mpr values]
      rfl
    · rw [compare_eq_iff_eq.mpr rfl, cmp_self_eq_eq]
      rfl
    · have values : (n : Rat) * 2 ^ e < m * 2 ^ e :=
        mul_lt_mul_of_pos_right (by exact_mod_cast more) (two_zpow_pos e)
      rw [compare_gt_iff_gt.mpr more, (cmp_eq_gt_iff _ _).mpr values]
      rfl
  · rw [compare_gt_iff_gt.mpr more,
      (cmp_eq_gt_iff _ _).mpr (lt_of_exponent_lt canonical' canonical more)]
    rfl

theorem signed_bounds (s : Sign) (pos : 0 < m) (inRange : InRange (.finite s m e pos)) :
    -limit < signed s (m * 2 ^ e) ∧ signed s (m * 2 ^ e) < limit := by
  have positive := pos_of_mantissa pos e
  have below := lt_limit inRange.1 inRange.2
  cases s <;> constructor <;> simp only [signed] <;> linarith

theorem some_lt_eq (less : a < b) : some Ordering.lt = some (cmp a b) :=
  congrArg some ((cmp_eq_lt_iff a b).mpr less).symm

theorem some_eq_eq (a : Rat) : some Ordering.eq = some (cmp a a) :=
  congrArg some (cmp_self_eq_eq a).symm

theorem some_gt_eq (more : b < a) : some Ordering.gt = some (cmp a b) :=
  congrArg some ((cmp_eq_gt_iff a b).mpr more).symm

theorem compare_infinity (s : Sign) (inRange : InRange g) (value : value? g = some b) :
    UnpackedFloat.compare (.infinity s) g = some (cmp (signed s limit) b) := by
  have positive := limit_pos
  cases g with
  | notANumber => exact nomatch value
  | infinity t =>
    cases value
    cases s <;> cases t
    · exact some_eq_eq _
    · exact some_lt_eq (by simp only [signed]; linarith)
    · exact some_gt_eq (by simp only [signed]; linarith)
    · exact some_eq_eq _
  | zero t =>
    cases value
    cases s
    · exact some_lt_eq (by simp only [signed]; linarith)
    · exact some_gt_eq positive
  | finite t n d pos =>
    cases value
    have bounds := signed_bounds t pos inRange
    cases s
    · exact some_lt_eq bounds.1
    · exact some_gt_eq bounds.2

theorem compare_zero (s : Sign) (value : value? g = some b) :
    UnpackedFloat.compare (.zero s) g = some (cmp 0 b) := by
  have positive := limit_pos
  cases g with
  | notANumber => exact nomatch value
  | infinity t =>
    cases value
    cases t
    · exact some_gt_eq (by simp only [signed]; linarith)
    · exact some_lt_eq positive
  | zero t =>
    cases value
    exact some_eq_eq 0
  | finite t n d pos =>
    cases value
    have above := pos_of_mantissa pos d
    cases t
    · exact some_gt_eq (by simp only [signed]; linarith)
    · exact some_lt_eq above

theorem compare_finite (s : Sign) (pos : 0 < m) (inRange : InRange (.finite s m e pos))
    (inRange' : InRange g) (value : value? g = some b) :
    UnpackedFloat.compare (.finite s m e pos) g = some (cmp (signed s (m * 2 ^ e)) b) := by
  have above := pos_of_mantissa pos e
  have bounds := signed_bounds s pos inRange
  cases g with
  | notANumber => exact nomatch value
  | infinity t =>
    cases value
    cases t
    · exact some_gt_eq bounds.1
    · exact some_lt_eq bounds.2
  | zero t =>
    cases value
    cases s
    · exact some_lt_eq (by simp only [signed]; linarith)
    · exact some_gt_eq above
  | finite t n d pos' =>
    cases value
    have above' := pos_of_mantissa pos' d
    have magnitudes := compare_magnitudes inRange.1 inRange'.1
    cases s <;> cases t
    · have turned : StrictAnti fun q : Rat => -q := fun _ _ less => neg_lt_neg less
      simp only [UnpackedFloat.compare, signed]
      rw [magnitudes, cmp_swap]
      exact congrArg some (turned.cmp_map_eq _ _).symm
    · exact some_lt_eq (by simp only [signed]; linarith)
    · exact some_gt_eq (by simp only [signed]; linarith)
    · exact congrArg some magnitudes

/-- Numbers compare as the rationals they stand for. -/
theorem compare_eq (inRange : InRange f) (inRange' : InRange g) (left : value? f = some a)
    (right : value? g = some b) : f.compare g = some (cmp a b) := by
  cases f with
  | notANumber => exact nomatch left
  | infinity s =>
    cases left
    exact compare_infinity s inRange' right
  | zero s =>
    cases left
    exact compare_zero s right
  | finite s m e pos =>
    cases left
    exact compare_finite s pos inRange inRange' right

theorem compare_none (undefined : value? f = none ∨ value? g = none) : f.compare g = none := by
  rcases undefined with undefined | undefined
  · cases f with
    | notANumber => cases g <;> rfl
    | infinity s => exact nomatch undefined
    | zero s => exact nomatch undefined
    | finite s m e pos => exact nomatch undefined
  · cases g with
    | notANumber => cases f <;> rfl
    | infinity s => exact nomatch undefined
    | zero s => exact nomatch undefined
    | finite s m e pos => exact nomatch undefined

theorem le_iff (inRange : InRange f) (inRange' : InRange g) :
    f.le g = true ↔ ∃ a b, value? f = some a ∧ value? g = some b ∧ a ≤ b := by
  unfold UnpackedFloat.le
  cases left : value? f with
  | none => simp [compare_none (Or.inl left)]
  | some a =>
    cases right : value? g with
    | none => simp [compare_none (Or.inr right)]
    | some b =>
      rw [compare_eq inRange inRange' left right]
      simp [Ordering.isLE_iff_ne_gt]

theorem lt_iff (inRange : InRange f) (inRange' : InRange g) :
    f.lt g = true ↔ ∃ a b, value? f = some a ∧ value? g = some b ∧ a < b := by
  unfold UnpackedFloat.lt
  cases left : value? f with
  | none => simp [compare_none (Or.inl left)]
  | some a =>
    cases right : value? g with
    | none => simp [compare_none (Or.inr right)]
    | some b =>
      rw [compare_eq inRange inRange' left right]
      simp

theorem beq_iff (inRange : InRange f) (inRange' : InRange g) :
    f.beq g = true ↔ ∃ a, value? f = some a ∧ value? g = some a := by
  unfold UnpackedFloat.beq
  cases left : value? f with
  | none => simp [compare_none (Or.inl left)]
  | some a =>
    cases right : value? g with
    | none => simp [compare_none (Or.inr right)]
    | some b =>
      rw [compare_eq inRange inRange' left right]
      simp only [Option.some_beq_some, beq_iff_eq, cmp_eq_eq_iff, Option.some.injEq]
      exact ⟨fun same => ⟨a, rfl, same.symm⟩, fun ⟨_, left, right⟩ => left.trans right.symm⟩

end Screencast.Rounding
