import Screencast.Proofs.Number.Nearest
import Screencast.Viewport.Easing

/-!
Transitions in the machine's numbers. Rounding may take the progress of a window above one, yet not
so far that its square could leave the range of the numbers.
-/

namespace Screencast

open Machine

namespace Ease

variable {time start length progress : Float}

theorem passed_bounds {s t d x : Rat} (standsStart : Stands start s) (standsTime : Stands time t)
    (standsLength : Stands length d) (standsPassed : Stands (time - start) x) (nonneg : 0 ≤ d)
    (opened : s ≤ t) (inside : time ≤ start + length) : 0 ≤ x ∧ x ≤ 4 * d := by
  have rounded : x = Rounding.round (t - s) :=
    Option.some.inj (standsPassed.value.symm.trans (value_sub standsTime standsStart))
  have within : t - s ≤ 2 * d :=
    sub_le_of_le_add standsStart standsLength nonneg standsTime inside
  have lower : Rounding.round 0 ≤ Rounding.round (t - s) := Rounding.round_mono (by linarith)
  have upper : Rounding.round (t - s) ≤ 2 * (t - s) := Rounding.round_le_two_mul (by linarith)
  rw [Rounding.round_zero, ← rounded] at lower
  rw [← rounded] at upper
  exact ⟨lower, by linarith⟩

/-- The part of an open window that has passed, if it is a number at all. Rounding may take it above
one, but not far. -/
theorem exists_part (positive : Number.ofInt 0 < length) (opened : ¬ time < start)
    (inside : time ≤ start + length) (finite : Number.isFinite ((time - start) / length) = true) :
    ∃ p, Stands ((time - start) / length) p ∧ |p| ≤ (4 : Nat) := by
  have passed := isFinite_of_div finite
  obtain ⟨t, standsTime⟩ := isFinite_iff.mp (isFinite_of_sub passed).1
  obtain ⟨s, standsStart⟩ := isFinite_iff.mp (isFinite_of_sub passed).2
  obtain ⟨x, standsPassed⟩ := isFinite_iff.mp passed
  have begun : s ≤ t := by
    by_contra before
    exact opened (lt_iff.mpr ⟨t, s, standsTime.value, standsStart.value, not_le.mp before⟩)
  obtain ⟨d, value, above⟩ := pos_iff.mp positive
  rcases stands_or_infinity value with standsLength | ⟨sign, infinite, _⟩
  · obtain ⟨nonneg, upper⟩ :=
      passed_bounds standsStart standsTime standsLength standsPassed above.le begun inside
    have part : |x / d| ≤ (4 : Nat) := by
      rw [abs_of_nonneg (div_nonneg nonneg above.le), div_le_iff₀ above]
      exact_mod_cast upper
    exact ⟨_, stands_round (by norm_num) (value_div standsPassed standsLength above.ne') part⟩
  · -- Of a window without end no part has passed.
    obtain ⟨_, nought⟩ := Rounding.div_infinity sign standsPassed
    have value : value? ((time - start) / length) = some (Rounding.round 0) := by
      rw [Rounding.round_zero, Machine.value?, unpack_div, infinite, nought]
      exact congrArg Rounding.value? (Float.Model.UnpackedFloat.unpack_packedZero ..)
    exact ⟨_, stands_round (by norm_num) value (by norm_num)⟩

theorem isFinite_square_rest {p : Rat} (stands : Stands progress p) (bound : |p| ≤ (4 : Nat)) :
    Number.isFinite (rest progress * rest progress) = true := by
  obtain ⟨factor, factorBound⟩ :=
    stands_round (n := 2) (by norm_num) (value_ofInt (-2)) (by norm_num)
  obtain ⟨product, standsProduct, productBound⟩ :=
    exists_stands_mul factor stands factorBound bound (by norm_num)
  have two : Stands (Number.ofInt 2) (2 : Nat) := stands_ofNat (by norm_num)
  obtain ⟨sum, standsSum, sumBound⟩ :=
    exists_stands_add (n := 2) standsProduct two productBound (by norm_num) (by norm_num)
  obtain ⟨square, standsSquare, _⟩ :=
    exists_stands_mul standsSum standsSum sumBound sumBound (by norm_num)
  exact isFinite_iff.mpr ⟨square, standsSquare⟩

theorem inOut?_of_isFinite
    (finite : Number.isFinite (rest progress) = true →
      Number.isFinite (rest progress * rest progress) = true) :
    inOut? progress = .ok (inOut progress) := by
  unfold inOut?
  split
  · rfl
  · next late =>
    have inRange : (Number.isFinite (rest progress) &&
        Number.isInfinite (rest progress * rest progress)) = false := by
      cases ends : Number.isFinite (rest progress) with
      | false => rfl
      | true =>
        have square := finite ends
        unfold Number.isFinite at square
        unfold Number.isInfinite
        cases value : Number.exact (rest progress * rest progress) with
        | ratio => rfl
        | _ => rw [value] at square; exact nomatch square
    rw [inRange]
    rfl

/-- Within a window the square of what is left to the end never leaves the range. -/
theorem inOut?_of_inside {start duration : Float}
    (inside : Phase.of time start duration = .inside progress) :
    inOut? progress = .ok (inOut progress) := by
  refine inOut?_of_isFinite fun finite => ?_
  -- A progress that is no number leaves no number of the rest.
  have ended : Number.isFinite progress = true :=
    LawfulNumber.isFinite_of_mul (isFinite_of_add finite)
  have bounded : ∃ p, Stands progress p ∧ |p| ≤ (4 : Nat) := by
    unfold Phase.of at inside
    dsimp only at inside
    split at inside
    · cases inside
    · next opened =>
      split at inside
      · next notClosed =>
        cases inside
        split at ended
        · next positive =>
          rw [if_pos positive]
          exact exists_part positive opened notClosed ended
        · next momentary =>
          rw [if_neg momentary]
          exact ⟨_, stands_ofNat (n := 1) (by norm_num), by norm_num⟩
      · cases inside
  obtain ⟨p, stands, bound⟩ := bounded
  exact isFinite_square_rest stands bound

end Ease

end Screencast
