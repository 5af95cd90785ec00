import Mathlib.Algebra.Order.Field.Rat
import Mathlib.Tactic.Linarith
import Screencast.Number.Rational

/-!
What the order and the arithmetic of a number type promise. Only such laws are asked for as the
machine's numbers keep too: sums are rounded, an infinity may come out, and NaN stands outside the
order, so that `x ≤ x` says of a number that it can be compared at all.
-/

namespace Screencast

open Number

class LawfulNumber (α : Type) [Number α] : Prop where
  le_trans {x y z : α} : x ≤ y → y ≤ z → x ≤ z
  lt_iff {x y : α} : x < y ↔ x ≤ y ∧ ¬ y ≤ x
  le_total {x y : α} : x ≤ x → y ≤ y → x ≤ y ∨ y ≤ x
  self_le_left {x y : α} : x ≤ y → x ≤ x
  self_le_right {x y : α} : x ≤ y → y ≤ y
  self_le {x : α} : isFinite x = true → x ≤ x
  /-- Whole numbers up to two to the fifty-third are in the range of the machine. -/
  isFinite_ofInt {n : Int} : n.natAbs ≤ twoTo 53 → isFinite (ofInt n : α) = true
  ofInt_le {m n : Int} : m ≤ n → (ofInt m : α) ≤ ofInt n
  ofInt_pos {n : Int} : 0 < n → (ofInt 0 : α) < ofInt n
  le_add {x y : α} : isFinite x = true ∨ ofInt 0 ≤ x → ofInt 0 ≤ y → x ≤ x + y
  sub_nonneg {x y : α} : isFinite y = true → y ≤ x → ofInt 0 ≤ x - y
  sub_le_sub {x y z : α} : isFinite z = true → x ≤ y → x - z ≤ y - z
  mul_nonneg {x z : α} : isFinite z = true → ofInt 0 < z → ofInt 0 ≤ x → ofInt 0 ≤ x * z
  mul_le_mul {x y z : α} : isFinite z = true → ofInt 0 < z → x ≤ y → x * z ≤ y * z
  div_le_div {x y z : α} : isFinite z = true → ofInt 0 < z → x ≤ y → x / z ≤ y / z
  /-- A factor without bound leaves no product with one. -/
  isFinite_of_mul {x y : α} : isFinite (x * y) = true → isFinite y = true

namespace Number

variable {α : Type} [Number α] [LawfulNumber α] {x y z : α}

theorem le_of_lt (less : x < y) : x ≤ y :=
  (LawfulNumber.lt_iff.mp less).1

theorem not_le_of_lt (less : x < y) : ¬ y ≤ x :=
  (LawfulNumber.lt_iff.mp less).2

theorem not_lt_of_le (le : x ≤ y) : ¬ y < x :=
  fun less => not_le_of_lt less le

theorem lt_of_lt_of_le (less : x < y) (le : y ≤ z) : x < z :=
  LawfulNumber.lt_iff.mpr ⟨LawfulNumber.le_trans (le_of_lt less) le,
    fun back => not_le_of_lt less (LawfulNumber.le_trans le back)⟩

theorem lt_of_le_of_lt (le : x ≤ y) (less : y < z) : x < z :=
  LawfulNumber.lt_iff.mpr ⟨LawfulNumber.le_trans le (le_of_lt less),
    fun back => not_le_of_lt less (LawfulNumber.le_trans back le)⟩

theorem le_of_not_lt (left : x ≤ x) (right : y ≤ y) (notLess : ¬ x < y) : y ≤ x := by
  rcases LawfulNumber.le_total left right with le | le
  · by_contra above
    exact notLess (LawfulNumber.lt_iff.mpr ⟨le, above⟩)
  · exact le

theorem lt_of_not_le (left : x ≤ x) (right : y ≤ y) (notLe : ¬ x ≤ y) : y < x := by
  rcases LawfulNumber.le_total left right with le | le
  · exact absurd le notLe
  · exact LawfulNumber.lt_iff.mpr ⟨le, notLe⟩

theorem isFinite_zero : isFinite (0 : α) = true :=
  LawfulNumber.isFinite_ofInt (by decide)

theorem zero_le_zero : (0 : α) ≤ 0 :=
  LawfulNumber.self_le isFinite_zero

theorem zero_le_larger (x : α) : (0 : α) ≤ larger 0 x := by
  unfold larger
  split
  · next above => exact le_of_lt above
  · exact zero_le_zero

theorem le_add_larger (finite : isFinite x = true ∨ (0 : α) ≤ x) : x ≤ x + larger 0 y :=
  LawfulNumber.le_add finite (zero_le_larger y)

theorem not_larger_lt_left (x y : α) : ¬ larger x y < x := by
  unfold larger
  split
  · next less => exact not_lt_of_le (le_of_lt less)
  · exact fun less => not_le_of_lt less (le_of_lt less)

theorem not_larger_lt_right (x y : α) : ¬ larger x y < y := by
  unfold larger
  split
  · exact fun less => not_le_of_lt less (le_of_lt less)
  · next notLess => exact notLess

theorem not_larger_lt_of_not_lt (notLess : ¬ x < z) (y : α) : ¬ larger x y < z := by
  unfold larger
  split
  · next less => exact fun back => notLess (lt_of_lt_of_le less (le_of_lt back))
  · exact notLess

omit [LawfulNumber α] in
theorem larger_self (left : x ≤ x) (right : y ≤ y) : larger x y ≤ larger x y := by
  unfold larger
  split
  · exact right
  · exact left

end Number

instance : LawfulNumber Rat where
  le_trans := Rat.le_trans
  lt_iff {x y} := by
    change x < y ↔ x ≤ y ∧ ¬ y ≤ x
    exact lt_iff_le_not_ge
  le_total _ _ := Rat.le_total
  self_le_left _ := Rat.le_refl
  self_le_right _ := Rat.le_refl
  self_le _ := Rat.le_refl
  isFinite_ofInt _ := rfl
  ofInt_le {m n} le := by
    change (m : Rat) ≤ (n : Rat)
    exact_mod_cast le
  ofInt_pos {n} pos := by
    change ((0 : Int) : Rat) < (n : Rat)
    exact_mod_cast pos
  le_add {x y} _ nonneg := by
    change ((0 : Int) : Rat) ≤ y at nonneg
    change x ≤ x + y
    push_cast at nonneg
    linarith
  sub_nonneg {x y} _ le := by
    change ((0 : Int) : Rat) ≤ x - y
    change y ≤ x at le
    push_cast
    linarith
  sub_le_sub {x y z} _ le := by
    change x ≤ y at le
    change x - z ≤ y - z
    linarith
  mul_nonneg {x z} _ pos nonneg := by
    change ((0 : Int) : Rat) < z at pos
    change ((0 : Int) : Rat) ≤ x at nonneg
    change ((0 : Int) : Rat) ≤ x * z
    push_cast at pos nonneg ⊢
    exact Rat.mul_nonneg nonneg pos.le
  mul_le_mul {x y z} _ pos le := by
    change ((0 : Int) : Rat) < z at pos
    change x ≤ y at le
    change x * z ≤ y * z
    push_cast at pos
    exact mul_le_mul_of_nonneg_right le pos.le
  div_le_div {x y z} _ pos le := by
    change ((0 : Int) : Rat) < z at pos
    change x ≤ y at le
    change x / z ≤ y / z
    push_cast at pos
    exact div_le_div_of_nonneg_right le pos.le
  isFinite_of_mul _ := rfl

end Screencast
