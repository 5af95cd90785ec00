import Screencast.Curve.Expr
import Screencast.Number.Rational
import Screencast.Proofs.Number.Rounding

/-!
Numbers with a fixed count of places, said of rationals. What is written is the multiple of the last
place that is nearest to the number, so rounding moves nothing by more than half of that place.
-/

namespace Screencast

namespace Rounding

theorem nearest_add_half_bounds (u : Rat) : u - 1 / 2 ≤ nearest u ∧ nearest u ≤ u + 1 / 2 := by
  have below := Int.floor_le u
  have above := Int.lt_floor_add_one u
  unfold nearest
  split
  · next low => constructor <;> linarith
  · next notLow =>
    split
    · next half =>
      rcases Int.emod_two_eq_zero_or_one ⌊u⌋ with even | odd
      · rw [even, add_zero]
        constructor <;> linarith
      · rw [odd]
        push_cast
        constructor <;> linarith
    · push_cast
      constructor <;> linarith

theorem abs_nearest_sub_le (u : Rat) : |(nearest u : Rat) - u| ≤ 1 / 2 := by
  obtain ⟨lower, upper⟩ := nearest_add_half_bounds u
  rw [abs_le]
  constructor <;> linarith

theorem floor_ratio (num : Nat) {den : Nat} (positive : 0 < den) :
    ⌊(num : Rat) / den⌋ = (num / den : Nat) ∧
      (num : Rat) / den - (num / den : Nat) = (num % den : Nat) / den := by
  have parts : (num : Rat) = den * (num / den : Nat) + (num % den : Nat) := by
    exact_mod_cast (Nat.div_add_mod num den).symm
  have units : (0 : Rat) < den := by exact_mod_cast positive
  refine ⟨?_, ?_⟩
  · have quotient := Rat.floor_intCast_div_natCast num den
    rw [Int.cast_natCast] at quotient
    rw [quotient, Int.natCast_div]
  · rw [eq_div_iff units.ne', sub_mul, div_mul_cancel₀ _ units.ne']
    linarith

theorem nearest_ratio (num : Nat) {den : Nat} (positive : 0 < den) :
    nearest ((num : Rat) / den) = nearestEven num den := by
  obtain ⟨floor, fraction⟩ := floor_ratio num positive
  have units : (0 : Rat) < den := by exact_mod_cast positive
  have low : ((num % den : Nat) : Rat) / den < 1 / 2 ↔ 2 * (num % den) < den := by
    rw [div_lt_iff₀ units, ← Nat.cast_lt (α := Rat)]
    push_cast
    constructor <;> intro less <;> linarith
  have half : ((num % den : Nat) : Rat) / den = 1 / 2 ↔ 2 * (num % den) = den := by
    rw [div_eq_iff units.ne', ← Nat.cast_inj (R := Rat)]
    push_cast
    constructor <;> intro same <;> linarith
  unfold nearest nearestEven
  simp only [floor, Int.cast_natCast, fraction, low, half]
  split
  · rfl
  · split
    · rw [if_neg (by omega)]
      push_cast
      rfl
    · rw [if_pos (by omega)]
      push_cast
      rfl

theorem nearest_neg (u : Rat) : nearest (-u) = -nearest u := by
  by_cases whole : (⌊u⌋ : Rat) = u
  · rw [← whole, ← Int.cast_neg, nearest_intCast, nearest_intCast]
  · have below : (⌊u⌋ : Rat) < u := lt_of_le_of_ne (Int.floor_le u) whole
    have above := Int.lt_floor_add_one u
    have floor : ⌊-u⌋ = -⌊u⌋ - 1 := by
      rw [Int.floor_eq_iff]
      push_cast
      constructor <;> linarith
    have fraction : -u - ⌊-u⌋ = 1 - (u - ⌊u⌋) := by
      rw [floor]
      push_cast
      linarith
    unfold nearest
    rw [fraction, floor]
    rcases lt_trichotomy (u - ⌊u⌋) (1 / 2) with low | half | high
    · rw [if_neg (by linarith), if_neg (by linarith), if_pos low]
      omega
    · rw [if_neg (by linarith), if_pos (by linarith), if_neg half.not_lt, if_pos half]
      omega
    · rw [if_pos (by linarith), if_neg high.not_gt, if_neg high.ne']
      omega

end Rounding

/-- The multiple of the last of some places that is nearest to a number; a half goes to the even
one. -/
def roundTo (places : Nat) (x : Rat) : Rat :=
  Rounding.nearest (x * 10 ^ places) / 10 ^ places

theorem abs_roundTo_sub_le (places : Nat) (x : Rat) :
    |roundTo places x - x| ≤ 1 / 2 / 10 ^ places := by
  have units : (0 : Rat) < 10 ^ places := by positivity
  have moved : roundTo places x - x =
      ((Rounding.nearest (x * 10 ^ places) : Rat) - x * 10 ^ places) / 10 ^ places := by
    rw [roundTo, sub_div, mul_div_cancel_right₀ _ units.ne']
  rw [moved, abs_div, abs_of_pos units]
  exact div_le_div_of_nonneg_right (Rounding.abs_nearest_sub_le _) units.le

theorem roundTo_mono (places : Nat) {x y : Rat} (le : x ≤ y) :
    roundTo places x ≤ roundTo places y := by
  have units : (0 : Rat) < 10 ^ places := by positivity
  have scaled : x * 10 ^ places ≤ y * 10 ^ places := mul_le_mul_of_nonneg_right le units.le
  exact div_le_div_of_nonneg_right (Int.cast_le.mpr (Rounding.nearest_mono scaled)) units.le

theorem roundTo_intCast (places : Nat) (n : Int) : roundTo places n = n := by
  have whole : (n : Rat) * 10 ^ places = ((n * 10 ^ places : Int) : Rat) := by push_cast; rfl
  have units : (10 : Rat) ^ places ≠ 0 := by positivity
  rw [roundTo, whole, Rounding.nearest_intCast]
  push_cast
  exact mul_div_cancel_right₀ _ units

theorem signed_nearestEven (q : Rat) (scale : Nat) :
    Exact.signed (decide (q.num < 0)) (nearestEven (q.num.natAbs * scale) q.den) =
      Rounding.nearest (q * scale) := by
  have ratio := Rounding.nearest_ratio (q.num.natAbs * scale) q.den_pos
  have value : q * scale = q.num / q.den * scale := by rw [Rat.num_div_den]
  unfold Exact.signed
  by_cases below : q.num < 0
  · have size : ((q.num.natAbs : Int) : Rat) = -q.num := by
      exact_mod_cast (by omega : (q.num.natAbs : Int) = -q.num)
    have negated : ((q.num.natAbs * scale : Nat) : Rat) / q.den = -(q * scale) := by
      rw [value, Nat.cast_mul, ← Int.cast_natCast q.num.natAbs, size]
      ring
    rw [negated, Rounding.nearest_neg] at ratio
    simp only [below, decide_true, if_true]
    omega
  · have size : ((q.num.natAbs : Int) : Rat) = q.num := by
      exact_mod_cast (by omega : (q.num.natAbs : Int) = q.num)
    have same : ((q.num.natAbs * scale : Nat) : Rat) / q.den = q * scale := by
      rw [value, Nat.cast_mul, ← Int.cast_natCast q.num.natAbs, size]
      ring
    rw [same] at ratio
    simp only [below, decide_false, Bool.false_eq_true, if_false]
    exact ratio.symm

/-- What is written with some places stands for the number rounded to these. -/
theorem Written.exists_of_roundTo (x : Rat) {places : Int} (nonneg : 0 ≤ places) :
    ∃ written, Written.of x places = .ok written ∧
      written.value = roundTo places.toNat x := by
  unfold Written.of
  by_cases whole : places = 0
  · rw [if_pos whole]
    refine ⟨_, rfl, ?_⟩
    have rounded := signed_nearestEven x 1
    rw [Nat.mul_one, Nat.cast_one, mul_one] at rounded
    change ((Exact.signed _ _ : Int) : Rat) = _
    rw [rounded, whole, roundTo]
    simp
  · rw [if_neg whole, if_neg (by omega)]
    refine ⟨_, rfl, ?_⟩
    change mkRat (Exact.signed _ (nearestEven (x.num.natAbs * tenTo places.toNat) x.den))
      (tenTo places.toNat) = _
    rw [signed_nearestEven, Rat.mkRat_eq_div, roundTo]
    simp [tenTo]

theorem Curve.eval_num (x : Rat) {places : Int} (nonneg : 0 ≤ places) (time : Rat) :
    (Curve.num x places).eval time = .ok (roundTo places.toNat x) := by
  obtain ⟨written, made, value⟩ := Written.exists_of_roundTo x nonneg
  rw [eval, made, ← value]
  rfl

end Screencast
