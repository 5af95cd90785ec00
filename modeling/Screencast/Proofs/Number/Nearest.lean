import Screencast.Proofs.Number.Machine
import Screencast.Proofs.Number.Places

/-!
How far rounding moves a number: no further than any of the machine's numbers lies away from it. So
a difference of two numbers in order is never lost, and what is added to a number comes back at most
twice as large.
-/

namespace Screencast.Rounding

open Float.Model Float.Model.UnpackedFloat

variable {f g : UnpackedFloat} {a b v : Rat} {m : Nat} {e : Int}

theorem abs_nearest_sub_le_abs (u : Rat) (k : Int) : |(nearest u : Rat) - u| ≤ |(k : Rat) - u| := by
  by_contra nearer
  have half := abs_nearest_sub_le u
  have apart : |((k - nearest u : Int) : Rat)| < 1 := by
    push_cast
    calc |(k : Rat) - nearest u| ≤ |(k : Rat) - u| + |u - nearest u| := abs_sub_le _ _ _
      _ < 1 := by
        rw [abs_sub_comm u]
        linarith
  have same : k - nearest u = 0 := Int.abs_lt_one_iff.mp (by exact_mod_cast apart)
  rw [sub_eq_zero.mp same] at nearer
  exact nearer le_rfl

theorem abs_magnitude_sub_le_of_units (v : Rat) (k : Int) :
    |magnitude v - v| ≤ |k * 2 ^ place v - v| := by
  have units := two_zpow_pos (place v)
  have scaled (x : Rat) : |x * 2 ^ place v - v| = |x - v / 2 ^ place v| * 2 ^ place v := by
    rw [← abs_of_pos units, ← abs_mul, abs_of_pos units, sub_mul, div_mul_cancel₀ _ units.ne']
  rw [magnitude, scaled, scaled]
  exact mul_le_mul_of_nonneg_right (abs_nearest_sub_le_abs _ k) units.le

/-- None of the machine's numbers is nearer: one with a lower exponent lies below the power of two
that the rounded number has reached, and that one is counted in units of the last place kept. -/
theorem Rounded.abs_magnitude_sub_le (rounded : Rounded f a) (positive : 0 < v) :
    |magnitude v - v| ≤ |a - v| := by
  cases rounded with
  | zero s =>
    have nearest := abs_magnitude_sub_le_of_units v 0
    rwa [Int.cast_zero, zero_mul] at nearest
  | @finite s m e pos canonical =>
    by_cases le : place v ≤ e
    · rw [← apply_decreaseExponent s m le]
      exact abs_magnitude_sub_le_of_units v _
    · -- Then the last place kept is not the lowest one, and the leading place of `v` is above `a`.
      have reached : (2 : Rat) ^ (52 + place v) ≤ v := by
        rw [two_zpow_le_iff positive]
        have low := canonical.2.1
        unfold place at le ⊢
        omega
      have below : (m : Rat) * 2 ^ e ≤ 2 ^ (52 + place v) := by
        have small : (m : Rat) ≤ 2 ^ (53 : Int) := by exact_mod_cast canonical.1.le
        calc (m : Rat) * 2 ^ e ≤ 2 ^ (53 : Int) * 2 ^ e :=
              mul_le_mul_of_nonneg_right small (two_zpow_pos e).le
          _ = 2 ^ (53 + e) := (two_zpow_add 53 e).symm
          _ ≤ 2 ^ (52 + place v) := two_zpow_le (by omega)
      have upper : signed s (m * 2 ^ e) ≤ 2 ^ (52 + place v) := by
        have nonneg := pos_of_mantissa pos e
        cases s <;> simp only [signed] <;> linarith
      have nearest := abs_magnitude_sub_le_of_units v (2 ^ 52)
      have power : ((2 ^ 52 : Int) : Rat) * 2 ^ place v = 2 ^ (52 + place v) := by
        rw [two_zpow_add]
        norm_num
      rw [power, abs_of_nonpos (a := 2 ^ (52 + place v) - v) (by linarith)] at nearest
      rw [abs_of_nonpos (a := signed s (m * 2 ^ e) - v) (by linarith)]
      linarith

theorem Rounded.abs_toPlaces_sub_le (rounded : Rounded f a) (v : Rat) :
    |Rounding.toPlaces v - v| ≤ |a - v| := by
  rcases lt_trichotomy v 0 with below | rfl | above
  · have turned := rounded.neg.abs_magnitude_sub_le (neg_pos.mpr below)
    rw [Rounding.toPlaces, if_pos below]
    calc |-magnitude (-v) - v| = |magnitude (-v) - -v| := by rw [← abs_neg]; congr 1; ring
      _ ≤ |-a - -v| := turned
      _ = |a - v| := by rw [← abs_neg]; congr 1; ring
  · rw [toPlaces_zero, sub_zero, abs_zero]
    exact abs_nonneg _
  · rw [toPlaces_of_nonneg above.le]
    exact rounded.abs_magnitude_sub_le above

/-- What is added to a number comes back at most twice as large. -/
theorem Rounded.toPlaces_add_sub_le (rounded : Rounded f a) (nonneg : 0 ≤ b) :
    Rounding.toPlaces (a + b) - a ≤ 2 * b := by
  have nearest := (abs_le.mp (rounded.abs_toPlaces_sub_le (a + b))).2
  have distance : |a - (a + b)| = b := by
    rw [sub_add_cancel_left, abs_neg, abs_of_nonneg nonneg]
  linarith

theorem isFinite_of_add (finite : (f.add Format.binary64 g).isFinite = true) :
    f.isFinite = true ∧ g.isFinite = true := by
  cases f with
  | notANumber => cases g <;> exact nomatch finite
  | infinity s =>
    cases g with
    | infinity t => cases s <;> cases t <;> exact nomatch finite
    | _ => exact nomatch finite
  | zero s => cases g <;> first | exact ⟨rfl, rfl⟩ | exact nomatch finite
  | finite s m e pos => cases g <;> first | exact ⟨rfl, rfl⟩ | exact nomatch finite

theorem isFinite_of_sub (finite : (f.sub Format.binary64 g).isFinite = true) :
    f.isFinite = true ∧ g.isFinite = true := by
  rw [sub_eq_add] at finite
  obtain ⟨left, right⟩ := isFinite_of_add finite
  refine ⟨left, ?_⟩
  cases g with
  | notANumber => exact nomatch right
  | infinity t => exact nomatch right
  | zero t => rfl
  | finite t n d pos => rfl

theorem isFinite_of_div (finite : (f.div Format.binary64 g).isFinite = true) :
    f.isFinite = true := by
  cases f with
  | notANumber => cases g <;> exact nomatch finite
  | infinity s => cases g <;> exact nomatch finite
  | zero s => rfl
  | finite s m e pos => rfl

/-- The machine's numbers lie on the multiples of the least positive one. -/
theorem Rounded.exists_units (rounded : Rounded f a) :
    ∃ k : Int, a = k * 2 ^ (-1074 : Int) := by
  cases rounded with
  | zero s => exact ⟨0, by rw [Int.cast_zero, zero_mul]⟩
  | @finite s m e pos canonical =>
    exact ⟨_, (apply_decreaseExponent s m canonical.2.1).symm⟩

theorem round_pos_of_units {k : Int} (positive : 0 < k) :
    0 < Rounding.round (k * 2 ^ (-1074 : Int)) := by
  have least : (2 : Rat) ^ (-1074 : Int) ≤ k * 2 ^ (-1074 : Int) :=
    le_mul_of_one_le_left (two_zpow_pos _).le (by exact_mod_cast positive)
  have places := magnitude_of_places (m := 1) (e := -1074) (by norm_num) le_rfl
  rw [Nat.cast_one, one_mul] at places
  have inside : (2 : Rat) ^ (-1074 : Int) ≤ limit := by
    calc (2 : Rat) ^ (-1074 : Int) ≤ 2 ^ (1024 : Int) := two_zpow_le (by norm_num)
      _ = limit := rfl
  have kept : Rounding.round (2 ^ (-1074 : Int)) = 2 ^ (-1074 : Int) := by
    have unit := two_zpow_pos (-1074)
    rw [Rounding.round, toPlaces_of_nonneg unit.le, places, clamp_of_abs_le _ inside]
    linarith [limit_pos]
  calc (0 : Rat) < 2 ^ (-1074 : Int) := two_zpow_pos _
    _ = Rounding.round (2 ^ (-1074 : Int)) := kept.symm
    _ ≤ Rounding.round (k * 2 ^ (-1074 : Int)) := round_mono least

theorem div_infinity (s : Sign) (left : Rounded f a) :
    ∃ t, f.div Format.binary64 (.infinity s) = .zero t := by
  cases left with
  | zero t => exact ⟨_, rfl⟩
  | finite t pos canonical => exact ⟨_, rfl⟩

theorem clamp_le_self {q : Rat} (lower : -limit ≤ q) : clamp q ≤ q :=
  max_le lower (min_le_left _ _)

theorem round_le_two_mul (nonneg : 0 ≤ v) : Rounding.round v ≤ 2 * v := by
  have doubled := (Rounded.zero .positive).toPlaces_add_sub_le nonneg
  rw [zero_add, sub_zero] at doubled
  have kept := toPlaces_mono nonneg
  rw [toPlaces_zero] at kept
  have limited := limit_pos
  exact (clamp_le_self (by linarith)).trans doubled

end Screencast.Rounding

namespace Screencast.Machine

open Float.Model Float.Model.UnpackedFloat Rounding

variable {x y z : Float} {a b c : Rat}

theorem isFinite_of_add (finite : Number.isFinite (x + y) = true) :
    Number.isFinite x = true := by
  rw [isFinite_iff_unpack] at finite ⊢
  exact (Rounding.isFinite_of_add (isFinite_of_pack finite)).1

theorem isFinite_of_sub (finite : Number.isFinite (x - y) = true) :
    Number.isFinite x = true ∧ Number.isFinite y = true := by
  rw [isFinite_iff_unpack] at finite
  rw [isFinite_iff_unpack, isFinite_iff_unpack]
  exact Rounding.isFinite_of_sub (isFinite_of_pack finite)

theorem isFinite_of_div (finite : Number.isFinite (x / y) = true) :
    Number.isFinite x = true := by
  rw [isFinite_iff_unpack] at finite ⊢
  exact Rounding.isFinite_of_div (isFinite_of_pack finite)

/-- Between two numbers in order the difference is positive, however close they are. -/
theorem value_sub_of_lt (less : x < y) : ∃ c, value? (y - x) = some c ∧ 0 < c := by
  have limited := limit_pos
  have unbounded (infinite : (y - x).toModel.unpack = .infinity .positive) :
      ∃ c, value? (y - x) = some c ∧ 0 < c := ⟨limit, value_infinity infinite, limited⟩
  obtain ⟨a, b, left, right, ordered⟩ := lt_iff.mp less
  rcases stands_or_infinity left with standsX | ⟨s, infiniteX, rfl⟩
  · rcases stands_or_infinity right with standsY | ⟨t, infiniteY, rfl⟩
    · -- Two multiples of the least number that differ do so by at least that number.
      obtain ⟨k, rfl⟩ := standsX.exists_units
      obtain ⟨l, rfl⟩ := standsY.exists_units
      have scaled := lt_of_mul_lt_mul_right ordered (two_zpow_pos (-1074)).le
      have apart : k < l := by exact_mod_cast scaled
      refine ⟨_, value_sub standsY standsX, ?_⟩
      rw [← sub_mul, ← Int.cast_sub]
      exact round_pos_of_units (by omega)
    · cases t with
      | negative => exact absurd ordered (not_lt.mpr standsX.bounds.1.le)
      | positive =>
        refine unbounded ?_
        rw [unpack_sub, infiniteY, infinity_sub _ standsX, unpack_pack_infinity]
  · cases s with
    | positive =>
      have highest : b ≤ limit := by
        rcases stands_or_infinity right with standsY | ⟨t, _, rfl⟩
        · exact standsY.bounds.2.le
        · cases t <;> simp only [signed] <;> linarith
      exact absurd ordered (not_lt.mpr highest)
    | negative =>
      refine unbounded ?_
      rcases stands_or_infinity right with standsY | ⟨t, infiniteY, rfl⟩
      · rw [unpack_sub, infiniteX, sub_eq_add]
        exact (congrArg (fun f => unpack Format.binary64 (pack Format.binary64 f))
          (add_infinity .positive standsY)).trans (unpack_pack_infinity .positive)
      · cases t with
        | negative => exact absurd ordered (lt_irrefl _)
        | positive =>
          rw [unpack_sub, infiniteX, infiniteY]
          exact unpack_pack_infinity .positive

theorem sub_beq_zero_of_lt (less : x < y) : (y - x == Number.ofInt 0) = false := by
  obtain ⟨c, value, positive⟩ := value_sub_of_lt less
  refine Bool.eq_false_iff.mpr fun nought => ?_
  obtain ⟨zero, valueSub, valueZero⟩ := beq_iff.mp nought
  cases value.symm.trans valueSub
  cases value_zero.symm.trans valueZero
  exact lt_irrefl _ positive

theorem sub_le_of_le_add (left : Stands x a) (right : Stands y b) (nonneg : 0 ≤ b)
    (value : Stands z c) (le : z ≤ x + y) : c - a ≤ 2 * b := by
  obtain ⟨c', sum, valueZ, valueSum, ordered⟩ := le_iff.mp le
  cases value.value.symm.trans valueZ
  rw [Option.some.inj (valueSum.symm.trans (value_add left right))] at ordered
  have kept : Rounding.toPlaces a ≤ Rounding.toPlaces (a + b) := toPlaces_mono (by linarith)
  rw [Rounded.toPlaces left] at kept
  have lower := left.bounds.1
  have below : c ≤ Rounding.toPlaces (a + b) := ordered.trans (clamp_le_self (by linarith))
  have twice := Rounded.toPlaces_add_sub_le left nonneg
  linarith

theorem stands_round {n : Nat} (small : n ≤ 2 ^ 53) (value : value? x = some (Rounding.round a))
    (bound : |a| ≤ n) : Stands x (Rounding.round a) ∧ |Rounding.round a| ≤ n := by
  obtain ⟨lower, upper⟩ := abs_le.mp bound
  have least := round_mono lower
  have greatest := round_mono upper
  rw [Rounding.round_neg, round_natCast small] at least
  rw [round_natCast small] at greatest
  have inside := natCast_lt_limit small
  exact ⟨stands_of_bounds value (by linarith) (by linarith), abs_le.mpr ⟨least, greatest⟩⟩

section Bounds

variable {m n : Nat} (left : Stands x a) (right : Stands y b) (leftBound : |a| ≤ m)
  (rightBound : |b| ≤ n)

include left right leftBound rightBound

theorem exists_stands_add (small : m + n ≤ 2 ^ 53) :
    ∃ c, Stands (x + y) c ∧ |c| ≤ (m + n : Nat) := by
  have bound : |a + b| ≤ (m + n : Nat) := by
    rw [Nat.cast_add]
    exact (abs_add_le a b).trans (add_le_add leftBound rightBound)
  exact ⟨_, stands_round small (value_add left right) bound⟩

theorem exists_stands_mul (small : m * n ≤ 2 ^ 53) :
    ∃ c, Stands (x * y) c ∧ |c| ≤ (m * n : Nat) := by
  have bound : |a * b| ≤ (m * n : Nat) := by
    rw [abs_mul, Nat.cast_mul]
    gcongr
  exact ⟨_, stands_round small (value_mul left right) bound⟩

end Bounds

end Screencast.Machine
