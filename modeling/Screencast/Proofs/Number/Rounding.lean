import Mathlib.Algebra.Order.Floor.Ring
import Mathlib.Data.Int.Log
import Mathlib.Data.Rat.Floor
import Mathlib.Tactic.Linarith
import Mathlib.Tactic.Positivity

/-!
Rounding to the machine's numbers, said of rationals. A number keeps fifty-three binary places, and
none of them lies below the one thousand and seventy-fourth behind the point; what is too large
stops at a limit that stands for the infinities.
-/

namespace Screencast.Rounding

def nearest (u : Rat) : Int :=
  if u - ⌊u⌋ < 1 / 2 then ⌊u⌋
  else if u - ⌊u⌋ = 1 / 2 then ⌊u⌋ + ⌊u⌋ % 2
  else ⌊u⌋ + 1

theorem floor_le_nearest (u : Rat) : ⌊u⌋ ≤ nearest u := by
  unfold nearest
  split
  · omega
  · split <;> omega

theorem nearest_le_succ (u : Rat) : nearest u ≤ ⌊u⌋ + 1 := by
  unfold nearest
  split
  · omega
  · split <;> omega

theorem nearest_mono {u w : Rat} (le : u ≤ w) : nearest u ≤ nearest w := by
  rcases (Int.floor_le_floor le).lt_or_eq with below | same
  · have first := nearest_le_succ u
    have second := floor_le_nearest w
    omega
  · -- On one whole number it is the fraction that decides.
    have fractions : u - ⌊u⌋ ≤ w - ⌊u⌋ := by linarith
    unfold nearest
    rw [← same]
    by_cases low : u - ⌊u⌋ < 1 / 2
    · rw [if_pos low]
      split_ifs <;> omega
    · have notLow : ¬ w - ⌊u⌋ < 1 / 2 := fun less => low (lt_of_le_of_lt fractions less)
      rw [if_neg low, if_neg notLow]
      by_cases half : u - ⌊u⌋ = 1 / 2
      · rw [if_pos half]
        split_ifs <;> omega
      · have notHalf : ¬ w - ⌊u⌋ = 1 / 2 := fun isHalf =>
          half (le_antisymm (fractions.trans_eq isHalf) (not_lt.mp low))
        rw [if_neg half, if_neg notHalf]

theorem nearest_intCast (n : Int) : nearest n = n := by
  simp [nearest]

/-- What is less than one half away is rounded to it, and a half away if it is even. -/
theorem nearest_eq {u : Rat} {n : Int} (lower : n - 1 / 2 ≤ u) (upper : u ≤ n + 1 / 2)
    (inside : n % 2 = 0 ∨ n - 1 / 2 < u ∧ u < n + 1 / 2) : nearest u = n := by
  unfold nearest
  rcases lt_or_ge u n with below | above
  · have floor : ⌊u⌋ = n - 1 := by
      rw [Int.floor_eq_iff]
      push_cast
      constructor <;> linarith
    rw [floor, if_neg (by push_cast; linarith)]
    split
    · next half =>
      push_cast at half
      have even : n % 2 = 0 := inside.resolve_right fun strict => by linarith [strict.1]
      omega
    · omega
  · have floor : ⌊u⌋ = n := by
      rw [Int.floor_eq_iff]
      constructor <;> linarith
    rw [floor]
    split
    · rfl
    · next notBelow =>
      have half : u - n = 1 / 2 := le_antisymm (by linarith) (not_lt.mp notBelow)
      have even : n % 2 = 0 := inside.resolve_right fun strict => by linarith [strict.2]
      rw [if_pos half]
      omega

def place (v : Rat) : Int :=
  max (Int.log 2 v - 52) (-1074)

def magnitude (v : Rat) : Rat :=
  nearest (v / 2 ^ place v) * 2 ^ place v

theorem magnitude_zero : magnitude 0 = 0 := by
  have kept := nearest_intCast 0
  rw [Int.cast_zero] at kept
  rw [magnitude, zero_div, kept, Int.cast_zero, zero_mul]

theorem place_mono {v w : Rat} (positive : 0 < v) (le : v ≤ w) : place v ≤ place w := by
  have logs := Int.log_mono_right (b := 2) positive le
  unfold place
  omega

theorem two_zpow_pos (e : Int) : (0 : Rat) < 2 ^ e :=
  zpow_pos (by norm_num) e

theorem two_zpow_add (e k : Int) : (2 : Rat) ^ (e + k) = 2 ^ e * 2 ^ k :=
  zpow_add₀ (by norm_num) e k

theorem two_zpow_le {e k : Int} (le : e ≤ k) : (2 : Rat) ^ e ≤ 2 ^ k :=
  zpow_le_zpow_right₀ (by norm_num) le

theorem two_zpow_le_iff {v : Rat} (positive : 0 < v) {k : Int} : 2 ^ k ≤ v ↔ k ≤ Int.log 2 v := by
  have logs := Int.zpow_le_iff_le_log (b := 2) (by norm_num) (x := k) positive
  exact_mod_cast logs

theorem lt_two_zpow_iff {v : Rat} (positive : 0 < v) {k : Int} : v < 2 ^ k ↔ Int.log 2 v < k := by
  have logs := Int.lt_zpow_iff_log_lt (b := 2) (by norm_num) (x := k) positive
  exact_mod_cast logs

theorem natCast_two_pow {k : Int} (nonneg : 0 ≤ k) : (((2 ^ k.toNat : Int)) : Rat) = 2 ^ k := by
  obtain ⟨n, rfl⟩ := Int.eq_ofNat_of_zero_le nonneg
  simp

theorem nearest_div_le {v : Rat} {e k : Int} (nonneg : 0 ≤ k) (le : v ≤ 2 ^ (e + k)) :
    (nearest (v / 2 ^ e) : Rat) ≤ 2 ^ k := by
  have bound : v / 2 ^ e ≤ ((2 ^ k.toNat : Int) : Rat) := by
    rw [natCast_two_pow nonneg, div_le_iff₀ (two_zpow_pos e), ← two_zpow_add, add_comm]
    exact le
  have rounded := nearest_mono bound
  rw [nearest_intCast] at rounded
  rw [← natCast_two_pow nonneg]
  exact_mod_cast rounded

theorem le_nearest_div {v : Rat} {e k : Int} (nonneg : 0 ≤ k) (le : 2 ^ (e + k) ≤ v) :
    (2 : Rat) ^ k ≤ nearest (v / 2 ^ e) := by
  have bound : ((2 ^ k.toNat : Int) : Rat) ≤ v / 2 ^ e := by
    rw [natCast_two_pow nonneg, le_div_iff₀ (two_zpow_pos e), ← two_zpow_add, add_comm]
    exact le
  have rounded := nearest_mono bound
  rw [nearest_intCast] at rounded
  rw [← natCast_two_pow nonneg]
  exact_mod_cast rounded

/-- Rounding keeps the order: under one last place because `nearest` does, and from one place to the
next because the power of two between the numbers is kept. -/
theorem magnitude_mono {v w : Rat} (positive : 0 < v) (le : v ≤ w) :
    magnitude v ≤ magnitude w := by
  unfold magnitude
  rcases (place_mono positive le).lt_or_eq with below | same
  · have positive' : 0 < w := positive.trans_le le
    have placeW : place w + 52 = Int.log 2 w := by
      unfold place at below ⊢
      omega
    have logs : Int.log 2 v + 1 ≤ Int.log 2 w := by
      unfold place at below
      omega
    have under : v ≤ 2 ^ (place v + (Int.log 2 w - place v)) := by
      rw [add_sub_cancel]
      exact ((lt_two_zpow_iff positive).mpr (by omega)).le
    have above : 2 ^ (place w + 52) ≤ w :=
      (two_zpow_le_iff positive').mpr placeW.le
    have first := nearest_div_le (by omega) under
    have second := le_nearest_div (by norm_num) above
    calc (nearest (v / 2 ^ place v) : Rat) * 2 ^ place v
        ≤ 2 ^ (Int.log 2 w - place v) * 2 ^ place v :=
          mul_le_mul_of_nonneg_right first (two_zpow_pos _).le
      _ = 2 ^ (52 : Int) * 2 ^ place w := by
          rw [← two_zpow_add, ← two_zpow_add, ← placeW]
          congr 1
          omega
      _ ≤ nearest (w / 2 ^ place w) * 2 ^ place w :=
          mul_le_mul_of_nonneg_right second (two_zpow_pos _).le
  · rw [← same]
    have rounded : nearest (v / 2 ^ place v) ≤ nearest (w / 2 ^ place v) :=
      nearest_mono (div_le_div_of_nonneg_right le (two_zpow_pos _).le)
    exact mul_le_mul_of_nonneg_right (by exact_mod_cast rounded) (two_zpow_pos _).le

theorem magnitude_nonneg {v : Rat} (nonneg : 0 ≤ v) : 0 ≤ magnitude v := by
  have rounded := nearest_mono (div_nonneg nonneg (two_zpow_pos (place v)).le)
  rw [← Int.cast_zero, nearest_intCast] at rounded
  exact mul_nonneg (by exact_mod_cast rounded) (two_zpow_pos _).le

theorem place_le {m : Nat} {e : Int} (positive : 0 < m) (small : m < 2 ^ 53) (low : -1074 ≤ e) :
    place (m * 2 ^ e) ≤ e := by
  have log : Int.log 2 ((m : Rat) * 2 ^ e) < e + 53 := by
    rw [← lt_two_zpow_iff (mul_pos (by exact_mod_cast positive) (two_zpow_pos e)), two_zpow_add,
      mul_comm]
    exact mul_lt_mul_of_pos_left (by exact_mod_cast small) (two_zpow_pos e)
  unfold place
  omega

theorem magnitude_of_places {m : Nat} {e : Int} (small : m < 2 ^ 53) (low : -1074 ≤ e) :
    magnitude (m * 2 ^ e) = m * 2 ^ e := by
  rcases Nat.eq_zero_or_pos m with rfl | positive
  · rw [Nat.cast_zero, zero_mul, magnitude_zero]
  · have le := place_le positive small low
    have whole : (m : Rat) * 2 ^ e / 2 ^ place (m * 2 ^ e)
        = ((m * 2 ^ (e - place (m * 2 ^ e)).toNat : Int) : Rat) := by
      push_cast
      rw [mul_div_assoc, ← zpow_sub₀ (by norm_num)]
      congr 1
      rw [← natCast_two_pow (by omega)]
      push_cast
      rfl
    unfold magnitude
    rw [whole, nearest_intCast, ← whole, div_mul_cancel₀ _ (two_zpow_pos _).ne']

def toPlaces (v : Rat) : Rat :=
  if v < 0 then -magnitude (-v) else magnitude v

theorem toPlaces_zero : toPlaces 0 = 0 := by
  rw [toPlaces, if_neg (lt_irrefl 0), magnitude_zero]

theorem toPlaces_of_nonneg {v : Rat} (nonneg : 0 ≤ v) : toPlaces v = magnitude v :=
  if_neg (not_lt.mpr nonneg)

theorem toPlaces_neg (v : Rat) : toPlaces (-v) = -toPlaces v := by
  unfold toPlaces
  rcases lt_trichotomy v 0 with below | rfl | above
  · rw [if_neg (by linarith), if_pos below, neg_neg]
  · simp [magnitude_zero]
  · rw [if_pos (by linarith), if_neg (by linarith), neg_neg]

theorem toPlaces_mono {v w : Rat} (le : v ≤ w) : toPlaces v ≤ toPlaces w := by
  unfold toPlaces
  by_cases negative : v < 0
  · rw [if_pos negative]
    by_cases negative' : w < 0
    · rw [if_pos negative']
      exact neg_le_neg (magnitude_mono (neg_pos.mpr negative') (neg_le_neg le))
    · have first := magnitude_nonneg (neg_pos.mpr negative).le
      have second := magnitude_nonneg (not_lt.mp negative')
      rw [if_neg negative']
      linarith
  · have nonneg : 0 ≤ v := not_lt.mp negative
    rw [if_neg negative, if_neg (not_lt.mpr (nonneg.trans le))]
    rcases nonneg.lt_or_eq with positive | rfl
    · exact magnitude_mono positive le
    · rw [magnitude_zero]
      exact magnitude_nonneg le

/-- The least number that is too large for the machine. -/
def limit : Rat := 2 ^ 1024

theorem limit_pos : 0 < limit := by
  unfold limit
  positivity

def clamp (q : Rat) : Rat :=
  max (-limit) (min q limit)

theorem clamp_mono {p q : Rat} (le : p ≤ q) : clamp p ≤ clamp q :=
  max_le_max le_rfl (min_le_min_right _ le)

theorem neg_limit_le_clamp (q : Rat) : -limit ≤ clamp q :=
  le_max_left _ _

theorem clamp_le_limit (q : Rat) : clamp q ≤ limit := by
  have positive := limit_pos
  exact max_le (by linarith) (min_le_right _ _)

theorem clamp_of_abs_le {q : Rat} (lower : -limit ≤ q) (upper : q ≤ limit) : clamp q = q := by
  rw [clamp, min_eq_left upper, max_eq_right lower]

theorem clamp_of_limit_le {q : Rat} (above : limit ≤ q) : clamp q = limit := by
  have positive := limit_pos
  rw [clamp, min_eq_right above, max_eq_right (by linarith)]

theorem clamp_of_le_neg_limit {q : Rat} (below : q ≤ -limit) : clamp q = -limit := by
  have positive := limit_pos
  rw [clamp, min_eq_left (by linarith), max_eq_left below]

theorem clamp_neg (q : Rat) : clamp (-q) = -clamp q := by
  rcases le_total limit q with above | below
  · rw [clamp_of_limit_le above, clamp_of_le_neg_limit (neg_le_neg above)]
  · rcases le_total q (-limit) with low | high
    · rw [clamp_of_le_neg_limit low, clamp_of_limit_le (by linarith), neg_neg]
    · rw [clamp_of_abs_le high below, clamp_of_abs_le (by linarith) (by linarith)]

def round (v : Rat) : Rat :=
  clamp (toPlaces v)

theorem round_mono {v w : Rat} (le : v ≤ w) : round v ≤ round w :=
  clamp_mono (toPlaces_mono le)

theorem round_neg (v : Rat) : round (-v) = -round v := by
  rw [round, round, toPlaces_neg, clamp_neg]

theorem round_zero : round 0 = 0 := by
  have positive := limit_pos
  rw [round, toPlaces_zero, clamp_of_abs_le (by linarith) positive.le]

end Screencast.Rounding
