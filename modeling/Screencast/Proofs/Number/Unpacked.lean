import Screencast.Proofs.Number.Rounding

/-!
The machine's numbers taken apart into a sign, a mantissa and an exponent, and the rational each
stands for. A result is first known by a whole number of places and by where the rest lies against
one half; from that it is rounded.
-/

namespace Screencast.Rounding

open Float.Model Float.Model.UnpackedFloat

/-- Where a rational lies above a whole number, as far as rounding wants to know. -/
def Placed (u : Rat) (m : Nat) : Accuracy → Prop
  | .exact => u = m
  | .inexact .lt => m < u ∧ u < m + 1 / 2
  | .inexact .eq => u = m + 1 / 2
  | .inexact .gt => m + 1 / 2 < u ∧ u < m + 1

variable {u v : Rat} {m n : Nat} {e : Int} {accuracy : Accuracy}

theorem Placed.le (placed : Placed u m accuracy) : (m : Rat) ≤ u := by
  rcases accuracy with _ | _ | _ | _
  · exact placed.ge
  · exact placed.1.le
  · have half : u = m + 1 / 2 := placed
    linarith
  · have above : m + 1 / 2 < u := placed.1
    linarith

theorem Placed.lt (placed : Placed u m accuracy) : u < m + 1 := by
  rcases accuracy with _ | _ | _ | _
  · have same : u = m := placed
    linarith
  · have below : u < m + 1 / 2 := placed.2
    linarith
  · have half : u = m + 1 / 2 := placed
    linarith
  · exact placed.2

theorem Placed.floor (placed : Placed u m accuracy) : ⌊u⌋ = m := by
  rw [Int.floor_eq_iff]
  exact ⟨by exact_mod_cast placed.le, by exact_mod_cast placed.lt⟩

theorem Placed.nearest (placed : Placed u m accuracy) :
    (accuracy.roundToNearestEven m : Int) = nearest u := by
  have floor := placed.floor
  have fraction : u - ⌊u⌋ = u - m := by rw [floor, Int.cast_natCast]
  unfold Rounding.nearest
  rw [fraction, floor]
  rcases accuracy with _ | _ | _ | _
  · have same : u = m := placed
    rw [if_pos (by linarith)]
    rfl
  · have below : u < m + 1 / 2 := placed.2
    rw [if_pos (by linarith)]
    rfl
  · have half : u = m + 1 / 2 := placed
    rw [if_neg (by linarith), if_pos (by linarith)]
    simp [Accuracy.roundToNearestEven]
  · have above : m + 1 / 2 < u := placed.1
    rw [if_neg (by linarith), if_neg (by linarith)]
    simp [Accuracy.roundToNearestEven]

theorem placed_shiftRightOne {em : ExtendedMantissa} (placed : Placed u em.mantissa em.accuracy) :
    Placed (u / 2) em.shiftRightOne.mantissa em.shiftRightOne.accuracy := by
  obtain ⟨m, roundBit, stickyBit⟩ := em
  -- The last place of the mantissa becomes the round bit.
  rcases Nat.mod_two_eq_zero_or_one m with even | odd
  · have half : (m : Rat) = 2 * (m / 2 : Nat) := by
      have whole : m = 2 * (m / 2) := by omega
      exact_mod_cast whole
    cases roundBit <;> cases stickyBit <;>
      simp [Placed, ExtendedMantissa.accuracy, ExtendedMantissa.shiftRightOne, even] at placed ⊢ <;>
      first | linarith | (constructor <;> linarith)
  · have half : (m : Rat) = 2 * (m / 2 : Nat) + 1 := by
      have whole : m = 2 * (m / 2) + 1 := by omega
      exact_mod_cast whole
    cases roundBit <;> cases stickyBit <;>
      simp [Placed, ExtendedMantissa.accuracy, ExtendedMantissa.shiftRightOne, odd] at placed ⊢ <;>
      first | linarith | (constructor <;> linarith)

theorem placed_shiftRight {em : ExtendedMantissa} (placed : Placed u em.mantissa em.accuracy)
    (n : Nat) : Placed (u / 2 ^ n) (em >>> n).mantissa (em >>> n).accuracy := by
  induction n with
  | zero =>
    rw [pow_zero, div_one]
    exact placed
  | succ n ih =>
    rw [pow_succ, ← div_div]
    exact placed_shiftRightOne ih

theorem placed_ofMantissaAndAccuracy (placed : Placed u m accuracy) :
    Placed u (ExtendedMantissa.ofMantissaAndAccuracy m accuracy).mantissa
      (ExtendedMantissa.ofMantissaAndAccuracy m accuracy).accuracy := by
  rcases accuracy with _ | _ | _ | _ <;> exact placed

theorem Placed.log (positive : 0 < v) (placed : Placed (v / 2 ^ e) m accuracy) (nonzero : 0 < m) :
    Int.log 2 v = m.log2 + e := by
  have units := two_zpow_pos e
  have lower := placed.le
  have upper := placed.lt
  rw [le_div_iff₀ units] at lower
  rw [div_lt_iff₀ units] at upper
  have below : 2 ^ m.log2 ≤ m := Nat.log2_self_le nonzero.ne'
  have above : m + 1 ≤ 2 ^ (m.log2 + 1) := Nat.lt_log2_self
  apply le_antisymm
  · rw [← Int.lt_add_one_iff, ← lt_two_zpow_iff positive,
      show (m.log2 : Int) + e + 1 = (m.log2 + 1 : Nat) + e by push_cast; ring, two_zpow_add]
    refine upper.trans_le (mul_le_mul_of_nonneg_right ?_ units.le)
    rw [zpow_natCast]
    exact_mod_cast above
  · rw [← two_zpow_le_iff positive, two_zpow_add]
    refine le_trans (mul_le_mul_of_nonneg_right ?_ units.le) lower
    rw [zpow_natCast]
    exact_mod_cast below

theorem targetExponent_totalExponent (m : Nat) (e : Int) :
    Format.binary64.targetExponent (totalExponent m e) = max (m.log2 + 1 + e - 53) (-1074) :=
  rfl

theorem targetExponent_of_pos (positive : 0 < v) (placed : Placed (v / 2 ^ e) m accuracy)
    (nonzero : 0 < m) : Format.binary64.targetExponent (totalExponent m e) = place v := by
  rw [targetExponent_totalExponent, place, placed.log positive nonzero]
  congr 1
  omega

theorem targetExponent_eq (positive : 0 < v) (placed : Placed (v / 2 ^ e) m accuracy)
    (le : e ≤ place v) : Format.binary64.targetExponent (totalExponent m e) = place v := by
  rcases Nat.eq_zero_or_pos m with rfl | nonzero
  · -- Nothing is left of the number above its exponent, so that is below the least one.
    have upper := placed.lt
    rw [div_lt_iff₀ (two_zpow_pos e), Nat.cast_zero, zero_add, one_mul,
      lt_two_zpow_iff positive] at upper
    rw [targetExponent_totalExponent, Nat.log2_zero]
    unfold place at le ⊢
    omega
  · exact targetExponent_of_pos positive placed nonzero

def signed : Sign → Rat → Rat
  | .negative, q => -q
  | .positive, q => q

/-- A mantissa that fills its places, unless the exponent is the least one. -/
def Canonical (m : Nat) (e : Int) : Prop :=
  m < 2 ^ 53 ∧ -1074 ≤ e ∧ (2 ^ 52 ≤ m ∨ e = -1074)

inductive Rounded : UnpackedFloat → Rat → Prop
  | zero (s : Sign) : Rounded (.zero s) 0
  | finite (s : Sign) {m : Nat} {e : Int} (pos : 0 < m) (canonical : Canonical m e) :
    Rounded (.finite s m e pos) (signed s (m * 2 ^ e))

theorem low_place (v : Rat) : -1074 ≤ place v :=
  le_max_right _ _

theorem shiftToTargetExponent_of_lt (small : m < 2 ^ 53) (low : -1074 ≤ e) :
    shiftToTargetExponent Format.binary64 m e .exact
      = (ExtendedMantissa.ofMantissaAndAccuracy m .exact, e) := by
  have target := targetExponent_totalExponent m e
  have log : m.log2 < 53 := by
    rcases Nat.eq_zero_or_pos m with rfl | nonzero
    · decide
    · exact (Nat.log2_lt nonzero.ne').mpr small
  have shift : (Format.binary64.targetExponent (totalExponent m e) - e).toNat = 0 := by omega
  unfold shiftToTargetExponent shiftToExponent
  simp only [shift, Nat.cast_zero, add_zero]
  rfl

theorem shiftToTargetExponent_full (low : -1074 ≤ e) :
    shiftToTargetExponent Format.binary64 (2 ^ 53) e .exact
      = (ExtendedMantissa.ofMantissaAndAccuracy (2 ^ 52) .exact, e + 1) := by
  have target := targetExponent_totalExponent (2 ^ 53) e
  rw [Nat.log2_two_pow] at target
  have shift : (Format.binary64.targetExponent (totalExponent (2 ^ 53) e) - e).toNat = 1 := by
    omega
  unfold shiftToTargetExponent shiftToExponent
  simp only [shift, Nat.cast_one]
  rfl

theorem nearest_place_le (positive : 0 < v) :
    (nearest (v / 2 ^ place v) : Rat) ≤ 2 ^ (53 : Int) := by
  have under : v ≤ 2 ^ (place v + 53) := by
    refine ((lt_two_zpow_iff positive).mpr ?_).le
    unfold place
    omega
  exact nearest_div_le (by norm_num) under

theorem le_nearest_place (positive : 0 < v) :
    2 ^ (52 : Int) ≤ (nearest (v / 2 ^ place v) : Rat) ∨ place v = -1074 := by
  by_cases low : place v = -1074
  · exact Or.inr low
  · have above : 2 ^ (place v + 52) ≤ v := by
      rw [two_zpow_le_iff positive]
      unfold place at low ⊢
      omega
    exact Or.inl (le_nearest_div (by norm_num) above)

theorem two_zpow_sub_div (u : Rat) {d e : Int} (le : d ≤ e) :
    u / 2 ^ d / 2 ^ (e - d).toNat = u / 2 ^ e := by
  rw [div_div, ← zpow_natCast, ← two_zpow_add]
  congr 2
  omega

/-- The second half of rounding: a mantissa is shifted if it was carried, and may be nought. -/
def finish (s : Sign) (m : Nat) (e : Int) : UnpackedFloat :=
  let (final, exponent) := shiftToTargetExponent Format.binary64 m e .exact
  if nought : final.mantissa = 0 then .zero s
  else .finite s final.mantissa exponent (Nat.pos_of_ne_zero nought)

theorem roundWithAccuracy_eq_finish (s : Sign) {em : ExtendedMantissa} {p : Int}
    (first : shiftToTargetExponent Format.binary64 m e accuracy = (em, p)) :
    roundWithAccuracy Format.binary64 s m e accuracy = finish s em.roundedMantissa p := by
  unfold roundWithAccuracy finish
  rw [first]

theorem finish_of_lt (s : Sign) (small : m < 2 ^ 53) (low : -1074 ≤ e) :
    finish s m e =
      if nought : m = 0 then .zero s else .finite s m e (Nat.pos_of_ne_zero nought) := by
  unfold finish
  rw [shiftToTargetExponent_of_lt small low]
  rfl

theorem finish_full (s : Sign) (low : -1074 ≤ e) :
    finish s (2 ^ 53) e = .finite s (2 ^ 52) (e + 1) (Nat.two_pow_pos 52) := by
  unfold finish
  rw [shiftToTargetExponent_full low]
  exact dif_neg (Nat.two_pow_pos 52).ne'

theorem finish_rounded (s : Sign) (upper : m ≤ 2 ^ 53) (low : -1074 ≤ e)
    (lower : 2 ^ 52 ≤ m ∨ e = -1074) : Rounded (finish s m e) (signed s (m * 2 ^ e)) := by
  rcases upper.lt_or_eq with small | rfl
  · rw [finish_of_lt s small low]
    by_cases nought : m = 0
    · have value : signed s (m * 2 ^ e) = 0 := by
        cases s <;> simp [signed, nought]
      rw [dif_pos nought, value]
      exact Rounded.zero s
    · rw [dif_neg nought]
      exact Rounded.finite s _ ⟨small, low, lower⟩
  · have carried : ((2 ^ 53 : Nat) : Rat) * 2 ^ e = (2 ^ 52 : Nat) * 2 ^ (e + 1) := by
      rw [two_zpow_add]
      push_cast
      ring
    rw [finish_full s low, carried]
    exact Rounded.finite s _ ⟨by norm_num, by omega, Or.inl le_rfl⟩

theorem toPlaces_signed (s : Sign) (nonneg : 0 ≤ v) :
    toPlaces (signed s v) = signed s (magnitude v) := by
  cases s with
  | negative => rw [signed, signed, toPlaces_neg, toPlaces_of_nonneg nonneg]
  | positive => rw [signed, signed, toPlaces_of_nonneg nonneg]

/-- What is known by its places and by where the rest lies is rounded to the nearest number. -/
theorem roundWithAccuracy_rounded (s : Sign) (positive : 0 < v)
    (placed : Placed (v / 2 ^ e) m accuracy) (le : e ≤ place v) :
    Rounded (roundWithAccuracy Format.binary64 s m e accuracy) (toPlaces (signed s v)) := by
  have first : shiftToTargetExponent Format.binary64 m e accuracy
      = (ExtendedMantissa.ofMantissaAndAccuracy m accuracy >>> (place v - e).toNat, place v) := by
    unfold shiftToTargetExponent shiftToExponent
    simp only [targetExponent_eq positive placed le]
    congr 1
    omega
  rw [roundWithAccuracy_eq_finish s first, toPlaces_signed s positive.le]
  have shifted := placed_shiftRight (placed_ofMantissaAndAccuracy placed) (place v - e).toNat
  rw [two_zpow_sub_div v le] at shifted
  have rounded := shifted.nearest
  have upper := nearest_place_le positive
  have lower := le_nearest_place positive
  unfold magnitude
  rw [← rounded, Int.cast_natCast] at upper lower ⊢
  exact finish_rounded s (by exact_mod_cast upper) (low_place v) (by exact_mod_cast lower)

theorem placed_exact (m : Nat) (e : Int) : Placed (m * 2 ^ e / 2 ^ e) m .exact :=
  mul_div_cancel_right₀ _ (two_zpow_pos e).ne'

theorem pos_of_mantissa (pos : 0 < m) (e : Int) : 0 < (m : Rat) * 2 ^ e :=
  mul_pos (by exact_mod_cast pos) (two_zpow_pos e)

theorem decreaseExponent_eq (m : Nat) (e t : Int) :
    decreaseExponent m e t = (m * 2 ^ (e - t).toNat, e - (e - t).toNat) := by
  rw [← Nat.shiftLeft_eq]
  rfl

theorem decreaseExponent_value (m : Nat) (e t : Int) :
    ((decreaseExponent m e t).1 : Rat) * 2 ^ (decreaseExponent m e t).2 = m * 2 ^ e := by
  rw [decreaseExponent_eq, Nat.cast_mul, Nat.cast_pow, Nat.cast_ofNat, ← zpow_natCast, mul_assoc,
    ← two_zpow_add]
  congr 2
  omega

theorem decreaseExponent_le (m : Nat) (e t : Int) : (decreaseExponent m e t).2 ≤ t := by
  rw [decreaseExponent_eq]
  omega

theorem decreaseExponent_pos (pos : 0 < m) (e t : Int) : 0 < (decreaseExponent m e t).1 := by
  rw [decreaseExponent_eq]
  exact Nat.mul_pos pos (Nat.two_pow_pos _)

theorem round_rounded (s : Sign) (pos : 0 < m) (e : Int) :
    Rounded (UnpackedFloat.round Format.binary64 s m e) (toPlaces (signed s (m * 2 ^ e))) := by
  have target := targetExponent_of_pos (pos_of_mantissa pos e) (placed_exact m e) pos
  have value := decreaseExponent_value m e (place (m * 2 ^ e))
  have low := decreaseExponent_le m e (place (m * 2 ^ e))
  have positive := decreaseExponent_pos pos e (place (m * 2 ^ e))
  unfold UnpackedFloat.round
  simp only [target]
  generalize decreaseExponent m e (place (m * 2 ^ e)) = lowered at value low positive ⊢
  rw [← value] at low ⊢
  exact roundWithAccuracy_rounded s (pos_of_mantissa positive _) (placed_exact _ _) low

theorem normalize_rounded (k e : Int) (s : Sign) :
    Rounded (UnpackedFloat.normalize Format.binary64 k e s) (toPlaces (k * 2 ^ e)) := by
  unfold UnpackedFloat.normalize
  rcases lt_trichotomy k 0 with below | rfl | above
  · have size : ((-k).toNat : Rat) = -k := by
      exact_mod_cast Int.toNat_of_nonneg (by omega : 0 ≤ -k)
    have rounded := round_rounded .negative (m := (-k).toNat) (by omega) e
    rw [size, signed, neg_mul, neg_neg] at rounded
    rw [compare_lt_iff_lt.mpr below]
    exact rounded
  · rw [Int.cast_zero, zero_mul, toPlaces_zero]
    exact Rounded.zero s
  · have size : (k.toNat : Rat) = k := by
      exact_mod_cast Int.toNat_of_nonneg above.le
    have rounded := round_rounded .positive (m := k.toNat) (by omega) e
    rw [size, signed] at rounded
    rw [compare_gt_iff_gt.mpr above]
    exact rounded

end Screencast.Rounding
