import Screencast.Curve.Piecewise
import Screencast.Proofs.Number.Lawful
import Screencast.Proofs.Number.Places
import Screencast.Proofs.Text.Figures

/-!
What the curves that are built from points come to at a time, counted exactly with the numbers as
they are written.
-/

namespace Screencast

open Number

theorem nearestEven_one (n : Nat) : nearestEven n 1 = n := by
  unfold nearestEven
  simp [Nat.mod_one]

theorem Written.of_intCast (n : Int) : Written.of (n : Rat) 0 = .ok (.whole n) := by
  change (Exact.round (Exact.ofRat (n : Rat))).map Written.whole = _
  unfold Exact.ofRat
  rw [Rat.num_intCast, Rat.den_intCast]
  change Except.ok (Written.whole (Exact.signed (decide (n < 0)) (nearestEven n.natAbs 1))) = _
  rw [nearestEven_one, Exact.signed_natAbs]

theorem larger_eq_max (a b : Rat) : larger a b = max a b := by
  unfold larger
  split
  · next less => exact (max_eq_right less.le).symm
  · next notLess => exact (max_eq_left (not_lt.mp notLess)).symm

theorem smaller_eq_min (a b : Rat) : smaller a b = min a b := by
  unfold smaller
  split
  · next less => exact (min_eq_right less.le).symm
  · next notLess => exact (min_eq_left (not_lt.mp notLess)).symm

namespace Curve

variable {time : Rat} {x y z : Curve Rat} {a b c : Rat}

theorem eval_whole (n : Int) : (Curve.num (n : Rat) 0).eval time = .ok (n : Rat) := by
  unfold eval
  rw [Written.of_intCast]
  rfl

theorem eval_add (left : x.eval time = .ok a) (right : y.eval time = .ok b) :
    (add x y).eval time = .ok (a + b) := by
  unfold add
  rw [eval, left, right]
  rfl

theorem eval_sub (left : x.eval time = .ok a) (right : y.eval time = .ok b) :
    (sub x y).eval time = .ok (a - b) := by
  unfold sub
  rw [eval, left, right]
  rfl

theorem eval_mul (left : x.eval time = .ok a) (right : y.eval time = .ok b) :
    (mul x y).eval time = .ok (a * b) := by
  unfold mul
  rw [eval, left, right]
  rfl

theorem eval_div (left : x.eval time = .ok a) (right : y.eval time = .ok b) (nonzero : b ≠ 0) :
    (div x y).eval time = .ok (a / b) := by
  unfold div
  rw [eval, left, right]
  change Except.ok (divide a b) = _
  unfold divide
  rw [if_neg (fun zero => nonzero (eq_of_beq zero))]

theorem eval_maximum (left : x.eval time = .ok a) (right : y.eval time = .ok b) :
    (maximum x y).eval time = .ok (max a b) := by
  rw [← larger_eq_max]
  unfold maximum
  simp only [eval, evalAll, left, right]
  rfl

theorem eval_minimum (left : x.eval time = .ok a) (right : y.eval time = .ok b) :
    (minimum x y).eval time = .ok (min a b) := by
  rw [← smaller_eq_min]
  unfold minimum
  simp only [eval, evalAll, left, right]
  rfl

theorem eval_clamp (value : x.eval time = .ok a) (low : y.eval time = .ok b)
    (high : z.eval time = .ok c) : (clamp x y z).eval time = .ok (max b (min c a)) :=
  eval_maximum low (eval_minimum high value)

theorem eval_ifBefore {moment written : Rat}
    (boundary : (Curve.num moment 2).eval time = .ok written) :
    (ifBefore moment x y).eval time = if time < written then x.eval time else y.eval time := by
  unfold ifBefore
  simp only [Curve.time, eval, evalAll] at boundary ⊢
  rw [boundary]
  by_cases before : time < written
  · have chosen : ((1 : Rat) == 0) = false := rfl
    change (if ((if time < written then (1 : Rat) else 0) == 0) = true then _ else _) = _
    rw [if_pos before, if_pos before, chosen]
    rfl
  · have chosen : ((0 : Rat) == 0) = true := rfl
    change (if ((if time < written then (1 : Rat) else 0) == 0) = true then _ else _) = _
    rw [if_neg before, if_neg before, chosen]
    rfl

theorem eval_line (v s t : Rat) {valuePlaces slopePlaces : Int} (valueNonneg : 0 ≤ valuePlaces)
    (slopeNonneg : 0 ≤ slopePlaces) (time : Rat) :
    (line v s t valuePlaces slopePlaces).eval time =
      .ok (roundTo valuePlaces.toNat v + roundTo slopePlaces.toNat s * (time - roundTo 2 t)) :=
  eval_add (eval_num v valueNonneg time)
    (eval_mul (eval_num s slopeNonneg time) (eval_sub rfl (eval_num t (by decide) time)))

theorem exists_eval_piecewise {valuePlaces slopePlaces : Int} (valueNonneg : 0 ≤ valuePlaces)
    (slopeNonneg : 0 ≤ slopePlaces) (points : List (Rat × Rat)) (time : Rat) :
    ∃ v, (piecewise valuePlaces slopePlaces points).eval time = .ok v := by
  induction points with
  | nil => exact ⟨_, eval_num 0 valueNonneg time⟩
  | cons point later ih =>
    cases later with
    | nil => exact ⟨_, eval_num point.2 valueNonneg time⟩
    | cons next rest =>
      simp only [piecewise]
      split
      · exact ih
      · rw [eval_ifBefore (eval_num next.1 (by decide : (0 : Int) ≤ 2) time)]
        split
        · exact ⟨_, eval_line _ _ _ valueNonneg slopeNonneg time⟩
        · exact ih

end Curve

end Screencast
