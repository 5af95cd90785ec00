import Screencast.Proofs.Number.Unpacked

/-!
The arithmetic of the machine's numbers taken apart: a sum, a difference, a product and a quotient
are what rounding makes of the exact ones.
-/

namespace Screencast.Rounding

open Float.Model Float.Model.UnpackedFloat

variable {f g : UnpackedFloat} {a b v : Rat} {m n : Nat} {d e : Int}

theorem signed_neg (s : Sign) (q : Rat) : signed (-s) q = -signed s q := by
  cases s with
  | negative => exact (neg_neg q).symm
  | positive => rfl

theorem signed_mul (s t : Sign) (p q : Rat) : signed (s * t) (p * q) = signed s p * signed t q := by
  cases s <;> cases t
  · exact (neg_mul_neg p q).symm
  · exact (neg_mul p q).symm
  · exact (mul_neg p q).symm
  · rfl

theorem signed_div (s t : Sign) (p q : Rat) : signed (s / t) (p / q) = signed s p / signed t q := by
  cases s <;> cases t
  · exact (neg_div_neg_eq p q).symm
  · exact (neg_div q p).symm
  · exact (div_neg p).symm
  · rfl

theorem toPlaces_of_canonical (s : Sign) (canonical : Canonical m e) :
    toPlaces (signed s (m * 2 ^ e)) = signed s (m * 2 ^ e) := by
  have nonneg : (0 : Rat) ≤ m * 2 ^ e := mul_nonneg m.cast_nonneg (two_zpow_pos e).le
  rw [toPlaces_signed s nonneg, magnitude_of_places canonical.1 canonical.2.1]

theorem Rounded.toPlaces (rounded : Rounded f a) : Rounding.toPlaces a = a := by
  cases rounded with
  | zero s => exact toPlaces_zero
  | finite s pos canonical => exact toPlaces_of_canonical s canonical

theorem Rounded.neg (rounded : Rounded f a) : Rounded f.neg (-a) := by
  cases rounded with
  | zero s =>
    rw [neg_zero]
    exact Rounded.zero _
  | finite s pos canonical =>
    rw [← signed_neg]
    exact Rounded.finite _ pos canonical

theorem apply_decreaseExponent (s : Sign) (m : Nat) (le : d ≤ e) :
    ((s.apply (decreaseExponent m e d).1 : Int) : Rat) * 2 ^ d = signed s (m * 2 ^ e) := by
  have value := decreaseExponent_value m e d
  have exponent : (decreaseExponent m e d).2 = d := by
    rw [decreaseExponent_eq]
    omega
  rw [exponent] at value
  rw [← value]
  cases s with
  | negative =>
    rw [Sign.apply, signed, Int.cast_neg, Int.cast_natCast, neg_mul]
  | positive =>
    rw [Sign.apply, signed, Int.cast_natCast]

theorem add_rounded (left : Rounded f a) (right : Rounded g b) :
    Rounded (f.add Format.binary64 g) (toPlaces (a + b)) := by
  cases left with
  | zero s =>
    rw [zero_add, right.toPlaces]
    cases right with
    | zero t => cases s <;> cases t <;> exact Rounded.zero _
    | finite t pos canonical => exact Rounded.finite t pos canonical
  | finite s pos canonical =>
    cases right with
    | zero t =>
      rw [add_zero, toPlaces_of_canonical s canonical]
      exact Rounded.finite s pos canonical
    | @finite t n d pos' canonical' =>
      -- Both mantissas are counted in units of the lower exponent.
      rw [← apply_decreaseExponent s _ (min_le_left _ d),
        ← apply_decreaseExponent t n (min_le_right _ d), ← add_mul, ← Int.cast_add]
      exact normalize_rounded _ _ _

theorem infinity_add (s : Sign) (right : Rounded g b) :
    UnpackedFloat.add Format.binary64 (.infinity s) g = .infinity s := by
  cases right <;> rfl

theorem add_infinity (s : Sign) (left : Rounded f a) :
    UnpackedFloat.add Format.binary64 f (.infinity s) = .infinity s := by
  cases left <;> rfl

theorem apply_neg (s : Sign) (k : Int) : (-s).apply k = -s.apply k := by
  cases s with
  | negative => exact (neg_neg k).symm
  | positive => rfl

theorem sub_eq_add (f g : UnpackedFloat) :
    f.sub Format.binary64 g = f.add Format.binary64 g.neg := by
  cases f with
  | infinity s => cases g <;> rfl
  | notANumber => cases g <;> rfl
  | zero s => cases g <;> rfl
  | finite s m e pos =>
    cases g with
    | infinity t => rfl
    | notANumber => rfl
    | zero t => rfl
    | finite t n d pos' =>
      have sum : s.apply (decreaseExponent m e (min e d)).1
          - t.apply (decreaseExponent n d (min e d)).1
          = s.apply (decreaseExponent m e (min e d)).1
            + (-t).apply (decreaseExponent n d (min e d)).1 := by
        rw [apply_neg, Int.sub_eq_add_neg]
      exact congrArg (UnpackedFloat.normalize Format.binary64 · (min e d) .positive) sum

theorem sub_rounded (left : Rounded f a) (right : Rounded g b) :
    Rounded (f.sub Format.binary64 g) (toPlaces (a - b)) := by
  rw [sub_eq_add, sub_eq_add_neg]
  exact add_rounded left right.neg

theorem infinity_sub (s : Sign) (right : Rounded g b) :
    UnpackedFloat.sub Format.binary64 (.infinity s) g = .infinity s := by
  cases right <;> rfl

theorem le_place (positive : 0 < v) (above : 2 ^ (e + 52) ≤ v) : e ≤ place v := by
  rw [two_zpow_le_iff positive] at above
  unfold place
  omega

theorem add_le_place (pos : 0 < m) (canonical : Canonical m e) (pos' : 0 < n)
    (canonical' : Canonical n d) : e + d ≤ place ((m * n : Nat) * 2 ^ (e + d)) := by
  have positive := pos_of_mantissa (Nat.mul_pos pos pos') (e + d)
  by_cases full : 2 ^ 52 ≤ m * n
  · refine le_place positive ?_
    rw [two_zpow_add, mul_comm]
    exact mul_le_mul_of_nonneg_right (by exact_mod_cast full) (two_zpow_pos _).le
  · have small : m < 2 ^ 52 := lt_of_le_of_lt (Nat.le_mul_of_pos_right m pos') (by omega)
    have small' : n < 2 ^ 52 := lt_of_le_of_lt (Nat.le_mul_of_pos_left n pos) (by omega)
    have lowest := canonical.2.2
    have lowest' := canonical'.2.2
    have low := low_place ((m * n : Nat) * 2 ^ (e + d))
    omega

theorem mul_rounded (left : Rounded f a) (right : Rounded g b) :
    Rounded (f.mul Format.binary64 g) (toPlaces (a * b)) := by
  cases left with
  | zero s =>
    rw [zero_mul, toPlaces_zero]
    cases right <;> exact Rounded.zero _
  | @finite s m e pos canonical =>
    cases right with
    | zero t =>
      rw [mul_zero, toPlaces_zero]
      exact Rounded.zero _
    | @finite t n d pos' canonical' =>
      have product : (m : Rat) * 2 ^ e * (n * 2 ^ d) = (m * n : Nat) * 2 ^ (e + d) := by
        rw [two_zpow_add]
        push_cast
        ring
      rw [← signed_mul, product]
      exact roundWithAccuracy_rounded _ (pos_of_mantissa (Nat.mul_pos pos pos') _)
        (placed_exact _ _) (add_le_place pos canonical pos' canonical')

theorem infinity_mul (s : Sign) (right : Rounded g b) (positive : 0 < b) :
    UnpackedFloat.mul Format.binary64 (.infinity s) g = .infinity s := by
  cases right with
  | zero t => exact absurd positive (lt_irrefl 0)
  | @finite t n d pos canonical =>
    have above := pos_of_mantissa pos d
    cases t with
    | negative =>
      rw [signed] at positive
      linarith
    | positive => cases s <;> rfl

theorem isFinite_of_mul (finite : (f.mul Format.binary64 g).isFinite = true) :
    g.isFinite = true := by
  cases g with
  | notANumber => cases f <;> exact nomatch finite
  | infinity t => cases f <;> exact nomatch finite
  | zero t => rfl
  | finite t n d pos => rfl

/-- A quotient of whole numbers lies above its whole part by the rest. -/
theorem placed_div (m : Nat) (pos : 0 < n) :
    Placed ((m : Rat) / n) (m / n) (accuracyOfFraction (m % n) n) := by
  have positive : (0 : Rat) < n := by exact_mod_cast pos
  have parts : (m : Rat) / n = (m / n : Nat) + (m % n : Nat) / n := by
    have whole : (m : Rat) = n * (m / n : Nat) + (m % n : Nat) := by
      exact_mod_cast (Nat.div_add_mod m n).symm
    field_simp
    linarith
  have small : ((m % n : Nat) : Rat) < n := by exact_mod_cast Nat.mod_lt m pos
  rw [parts]
  unfold accuracyOfFraction
  split
  · next none =>
    rw [none, Nat.cast_zero, zero_div, add_zero]
    rfl
  · next some =>
    have rest : (0 : Rat) < (m % n : Nat) / n :=
      div_pos (by exact_mod_cast Nat.pos_of_ne_zero some) positive
    rcases lt_trichotomy (2 * (m % n)) n with less | same | more
    · rw [compare_lt_iff_lt.mpr less]
      have half : ((m % n : Nat) : Rat) / n < 1 / 2 := by
        rw [div_lt_div_iff₀ positive (by norm_num), one_mul, mul_comm]
        exact_mod_cast less
      exact ⟨by linarith, by linarith⟩
    · rw [compare_eq_iff_eq.mpr same]
      have half : ((m % n : Nat) : Rat) / n = 1 / 2 := by
        rw [div_eq_div_iff positive.ne' (by norm_num), one_mul, mul_comm]
        exact_mod_cast same
      exact congrArg _ half
    · rw [compare_gt_iff_gt.mpr more]
      have half : 1 / 2 < ((m % n : Nat) : Rat) / n := by
        rw [div_lt_div_iff₀ (by norm_num) positive, one_mul, mul_comm]
        exact_mod_cast more
      have one : ((m % n : Nat) : Rat) / n < 1 := (div_lt_one positive).mpr small
      exact ⟨by linarith, by linarith⟩

def quotientExponent (m : Nat) (e : Int) (n : Nat) (d : Int) : Int :=
  min (e - d) (Format.binary64.targetExponent (totalExponent m e - totalExponent n d))

theorem log_sub_log_le {w : Rat} (positive : 0 < v) (positive' : 0 < w) :
    Int.log 2 v - Int.log 2 w - 1 ≤ Int.log 2 (v / w) := by
  have above := (two_zpow_le_iff positive).mpr le_rfl
  have below := ((lt_two_zpow_iff positive').mpr (lt_add_one _)).le
  rw [← two_zpow_le_iff (div_pos positive positive'), le_div_iff₀ positive']
  refine le_trans (mul_le_mul_of_nonneg_left below (two_zpow_pos _).le) ?_
  rw [← two_zpow_add]
  refine le_trans (two_zpow_le ?_) above
  omega

theorem quotientExponent_le_place (pos : 0 < m) (pos' : 0 < n) (e d : Int) :
    quotientExponent m e n d ≤ place (m * 2 ^ e / (n * 2 ^ d)) := by
  have positive := pos_of_mantissa pos e
  have positive' := pos_of_mantissa pos' d
  have logs := log_sub_log_le positive positive'
  rw [(placed_exact m e).log positive pos, (placed_exact n d).log positive' pos'] at logs
  have target : Format.binary64.targetExponent (totalExponent m e - totalExponent n d)
      = max (m.log2 + 1 + e - (n.log2 + 1 + d) - 53) (-1074) := rfl
  unfold quotientExponent place
  rw [target]
  omega

theorem placed_quotient (m : Nat) (pos : 0 < n) {e d t : Int} (le : t ≤ e - d) :
    Placed (m * 2 ^ e / (n * 2 ^ d) / 2 ^ t) (m <<< (e - d - t).toNat / n)
      (accuracyOfFraction (m <<< (e - d - t).toNat % n) n) := by
  have shifted : (m : Rat) * 2 ^ e / (n * 2 ^ d) / 2 ^ t
      = ((m <<< (e - d - t).toNat : Nat) : Rat) / n := by
    have exponents : (2 : Rat) ^ e = 2 ^ (e - d - t).toNat * 2 ^ d * 2 ^ t := by
      rw [← zpow_natCast, ← two_zpow_add, ← two_zpow_add]
      congr 1
      omega
    rw [Nat.shiftLeft_eq, exponents]
    push_cast
    have unit := (two_zpow_pos d).ne'
    have unit' := (two_zpow_pos t).ne'
    field_simp
  rw [shifted]
  exact placed_div _ pos

/-- A quotient of whole numbers of any size is rounded. -/
theorem finite_div_rounded (s t : Sign) (pos : 0 < m) (pos' : 0 < n) (e d : Int) :
    Rounded (UnpackedFloat.div Format.binary64 (.finite s m e pos) (.finite t n d pos'))
      (toPlaces (signed s (m * 2 ^ e) / signed t (n * 2 ^ d))) := by
  have positive := div_pos (pos_of_mantissa pos e) (pos_of_mantissa pos' d)
  rw [← signed_div]
  exact roundWithAccuracy_rounded _ positive
    (placed_quotient m pos' (min_le_left _ _)) (quotientExponent_le_place pos pos' e d)

theorem div_rounded (left : Rounded f a) (right : Rounded g b) (nonzero : b ≠ 0) :
    Rounded (f.div Format.binary64 g) (toPlaces (a / b)) := by
  cases right with
  | zero t => exact absurd rfl nonzero
  | @finite t n d pos' canonical' =>
    cases left with
    | zero s =>
      rw [zero_div, toPlaces_zero]
      exact Rounded.zero _
    | @finite s m e pos canonical => exact finite_div_rounded s t pos pos' e d

theorem infinity_div (s : Sign) (right : Rounded g b) (positive : 0 < b) :
    UnpackedFloat.div Format.binary64 (.infinity s) g = .infinity s := by
  cases right with
  | zero t => exact absurd positive (lt_irrefl 0)
  | @finite t n d pos canonical =>
    have above := pos_of_mantissa pos d
    cases t with
    | negative =>
      rw [signed] at positive
      linarith
    | positive => cases s <;> rfl

end Screencast.Rounding
