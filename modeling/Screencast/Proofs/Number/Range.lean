import Screencast.Proofs.Number.Machine
import Screencast.Proofs.Number.Places

/-!
The whole numbers that the machine's numbers reach: all below the middle between the greatest of
them and the limit.
-/

namespace Screencast

namespace Rounding

/-- The least whole number that is rounded to the limit, half a unit of the last place below it. -/
def rim : Nat :=
  (2 ^ 54 - 1) * 2 ^ 970

variable {v : Rat}

theorem natCast_rim : (rim : Rat) = (2 ^ (53 : Int) - 1 / 2) * 2 ^ (971 : Int) := by
  have power : ((2 ^ 970 : Nat) : Rat) = 2 ^ ((970 : Nat) : Int) := by
    rw [zpow_natCast]
    exact Nat.cast_pow 2 970
  have unit : (2 : Rat) ^ (971 : Int) = 2 * 2 ^ ((970 : Nat) : Int) := two_zpow_add 1 970
  have units : ((2 ^ 54 - 1 : Nat) : Rat) = (2 ^ (53 : Int) - 1 / 2) * 2 := by norm_num
  rw [rim, Nat.cast_mul, power, unit, units, mul_assoc]

theorem limit_eq : limit = 2 ^ (53 : Int) * 2 ^ (971 : Int) :=
  two_zpow_add 53 971

theorem place_of_top (lower : 2 ^ (1023 : Int) ≤ v) (upper : v < limit) : place v = 971 := by
  have positive : 0 < v := lt_of_lt_of_le (two_zpow_pos 1023) lower
  have least := (two_zpow_le_iff positive).mp lower
  have most := (lt_two_zpow_iff positive (k := 1024)).mp upper
  unfold place
  omega

theorem rim_lt_limit : (rim : Rat) < limit := by
  rw [natCast_rim, limit_eq]
  exact mul_lt_mul_of_pos_right (by norm_num) (two_zpow_pos _)

theorem two_zpow_le_rim : (2 : Rat) ^ (1023 : Int) ≤ rim := by
  rw [natCast_rim, show (1023 : Int) = 52 + 971 by norm_num, two_zpow_add]
  exact mul_le_mul_of_nonneg_right (by norm_num) (two_zpow_pos _).le

theorem magnitude_rim : magnitude rim = limit := by
  have unit := two_zpow_pos 971
  have rounded : nearest ((rim : Rat) / 2 ^ (971 : Int)) = 2 ^ 53 := by
    rw [natCast_rim, mul_div_cancel_right₀ _ unit.ne']
    apply nearest_eq
    · norm_num
    · norm_num
    · exact Or.inl (by norm_num)
  have whole : ((2 ^ 53 : Int) : Rat) = 2 ^ (53 : Int) := by norm_num
  rw [magnitude, place_of_top two_zpow_le_rim rim_lt_limit, rounded, whole, limit_eq]

theorem magnitude_lt_limit_iff (nonneg : 0 ≤ v) : magnitude v < limit ↔ v < rim := by
  have low := two_zpow_le_rim
  have unit := two_zpow_pos 971
  constructor
  · intro inside
    by_contra outside
    have larger := magnitude_mono ((two_zpow_pos 1023).trans_le low) (not_lt.mp outside)
    rw [magnitude_rim] at larger
    exact absurd inside (not_lt.mpr larger)
  · intro below
    rcases lt_or_ge v (2 ^ (1023 : Int)) with small | large
    · rcases nonneg.eq_or_lt with rfl | positive
      · rw [magnitude_zero]
        exact limit_pos
      · have kept := magnitude_of_places (m := 1) (e := 1023) (by norm_num) (by norm_num)
        rw [Nat.cast_one, one_mul] at kept
        have least := magnitude_mono positive small.le
        rw [kept] at least
        exact least.trans_lt (low.trans_lt rim_lt_limit)
    · rw [natCast_rim, ← div_lt_iff₀ unit] at below
      have near := (nearest_add_half_bounds (v / 2 ^ (971 : Int))).2
      have inside : v < limit := by
        rw [limit_eq, ← div_lt_iff₀ unit]
        linarith
      rw [magnitude, place_of_top large inside, limit_eq]
      exact mul_lt_mul_of_pos_right (by linarith) unit

end Rounding

namespace Binary

open Machine Rounding

theorem round_natCast_lt_limit_iff (n : Nat) : Rounding.round n < limit ↔ n < rim := by
  have nonneg := magnitude_nonneg (n.cast_nonneg (α := Rat))
  have positive := limit_pos
  have whole : magnitude n < limit ↔ n < rim := by
    rw [magnitude_lt_limit_iff n.cast_nonneg, Nat.cast_lt]
  rw [← whole, Rounding.round, toPlaces_of_nonneg n.cast_nonneg]
  constructor
  · intro inside
    by_contra outside
    rw [clamp_of_limit_le (not_lt.mp outside)] at inside
    exact lt_irrefl _ inside
  · intro inside
    rwa [clamp_of_abs_le (by linarith) inside.le]

theorem round_bounds_iff (n : Int) :
    (-limit < Rounding.round n ∧ Rounding.round n < limit) ↔ n.natAbs < rim := by
  have positive := limit_pos
  have rounds : ∀ m : Nat, 0 ≤ Rounding.round m := by
    intro m
    rw [← round_zero]
    exact round_mono m.cast_nonneg
  obtain ⟨m, rfl | rfl⟩ := n.eq_nat_or_neg
  · rw [Int.cast_natCast, Int.natAbs_natCast, ← round_natCast_lt_limit_iff]
    exact and_iff_right (by linarith [rounds m])
  · rw [Int.cast_neg, Int.cast_natCast, Int.natAbs_neg, Int.natAbs_natCast, Rounding.round_neg,
      ← round_natCast_lt_limit_iff, neg_lt_neg_iff]
    exact and_iff_left (by linarith [rounds m])

theorem ofInteger_eq (n : Int) :
    ofInteger n = if rim ≤ n.natAbs then .error .integerTooLarge else .ok (Float.ofInt n) := by
  have value := value_ofInt n
  have finite : (exact (Float.ofInt n)).isFinite = true ↔ n.natAbs < rim := by
    rw [← round_bounds_iff]
    constructor
    · intro finite
      obtain ⟨a, stands⟩ := isFinite_iff.mp finite
      rw [Option.some.inj (value.symm.trans stands.value)]
      exact stands.bounds
    · rintro ⟨lower, upper⟩
      exact isFinite_iff.mpr ⟨_, stands_of_bounds value lower upper⟩
  unfold ofInteger
  dsimp only
  by_cases small : n.natAbs < rim
  · rw [if_pos (finite.mpr small), if_neg (not_le.mpr small)]
  · rw [if_neg fun isFinite => small (finite.mp isFinite), if_pos (not_lt.mp small)]

end Binary

end Screencast
