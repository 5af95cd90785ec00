import Screencast.Proofs.Curve.Eval

/-!
A curve through points beside the straight lines that it stands for. What is counted with the
written numbers strays from the lines by half of the last place of a value, half of the last place
of a slope over the longest gap, and as much as the steepest line rises in fifteen thousandths: the
moments are written with two places, and so may pass on a time to the line before or behind.
-/

namespace Screencast.Curve

def slope (a b : Rat × Rat) : Rat := (b.2 - a.2) / (b.1 - a.1)

def chord (a b : Rat × Rat) (time : Rat) : Rat := a.2 + slope a b * (time - a.1)

/-- The straight lines from each point to the next, and the level of the last point behind it.
Before the first point its line goes on. -/
def interpolate : List (Rat × Rat) → Rat → Rat
  | [], _ => 0
  | [a], _ => a.2
  | a :: b :: rest, time => if time < b.1 then chord a b time else interpolate (b :: rest) time

def neighbours (points : List (Rat × Rat)) : List ((Rat × Rat) × (Rat × Rat)) :=
  points.zip points.tail

def greatest (xs : List Rat) : Rat := xs.foldr max 0

def longestGap (points : List (Rat × Rat)) : Rat :=
  greatest ((neighbours points).map fun (a, b) => b.1 - a.1)

def steepest (points : List (Rat × Rat)) : Rat :=
  greatest ((neighbours points).map fun (a, b) => |slope a b|)

theorem greatest_nonneg (xs : List Rat) : 0 ≤ greatest xs := by
  cases xs with
  | nil => exact le_rfl
  | cons x rest => exact (greatest_nonneg rest).trans (le_max_right _ _)

theorem le_greatest {xs : List Rat} {x : Rat} (member : x ∈ xs) : x ≤ greatest xs := by
  induction xs with
  | nil => cases member
  | cons first rest ih =>
    rcases List.mem_cons.mp member with rfl | later
    · exact le_max_left _ _
    · exact (ih later).trans (le_max_right _ _)

theorem neighbours_cons (a b : Rat × Rat) (rest : List (Rat × Rat)) :
    neighbours (a :: b :: rest) = (a, b) :: neighbours (b :: rest) := rfl

theorem chord_left (a b : Rat × Rat) : chord a b a.1 = a.2 := by
  simp [chord]

theorem chord_right {a b : Rat × Rat} (before : a.1 < b.1) : chord a b b.1 = b.2 := by
  have gap : b.1 - a.1 ≠ 0 := by linarith
  rw [chord, slope, div_mul_cancel₀ _ gap]
  linarith

theorem chord_sub (a b : Rat × Rat) (s t : Rat) :
    chord a b s - chord a b t = slope a b * (s - t) := by
  unfold chord
  ring

variable {points rest : List (Rat × Rat)} {a b : Rat × Rat}

theorem interpolate_first (increasing : (a :: rest).Pairwise fun a b => a.1 < b.1) :
    interpolate (a :: rest) a.1 = a.2 := by
  cases rest with
  | nil => rfl
  | cons b rest =>
    have before : a.1 < b.1 := (List.pairwise_cons.mp increasing).1 b (by simp)
    rw [interpolate, if_pos before, chord_left]

def Steady (steep : Rat) (f : Rat → Rat) : Prop :=
  ∀ s t, s ≤ t → |f s - f t| ≤ steep * (t - s)

theorem steady_chord {steep : Rat} (slope_le : |slope a b| ≤ steep) : Steady steep (chord a b) := by
  intro s t le
  rw [chord_sub, abs_mul, abs_sub_comm, abs_of_nonneg (sub_nonneg.mpr le)]
  exact mul_le_mul_of_nonneg_right slope_le (sub_nonneg.mpr le)

theorem steady_interpolate (increasing : points.Pairwise fun a b => a.1 < b.1) {steep : Rat}
    (nonneg : 0 ≤ steep) (slopes : ∀ pair ∈ neighbours points, |slope pair.1 pair.2| ≤ steep) :
    Steady steep (interpolate points) := by
  induction points with
  | nil =>
    intro s t le
    simpa [interpolate] using mul_nonneg nonneg (sub_nonneg.mpr le)
  | cons a rest ih =>
    cases rest with
    | nil =>
      intro s t le
      simpa [interpolate] using mul_nonneg nonneg (sub_nonneg.mpr le)
    | cons b rest =>
      obtain ⟨first, increasingRest⟩ := List.pairwise_cons.mp increasing
      have line := steady_chord (slopes (a, b) (by simp [neighbours]))
      have later := ih increasingRest fun pair member =>
        slopes pair (List.mem_cons_of_mem _ member)
      intro s t le
      rw [interpolate, interpolate]
      by_cases tBefore : t < b.1
      · rw [if_pos (le.trans_lt tBefore), if_pos tBefore]
        exact line s t le
      · by_cases sBefore : s < b.1
        · -- The way from `s` to `t` leads over the point `b`, where the line meets the next.
          rw [if_pos sBefore, if_neg tBefore]
          have meet : chord a b b.1 = interpolate (b :: rest) b.1 := by
            rw [chord_right (first b (by simp)), interpolate_first increasingRest]
          have upTo := line s b.1 sBefore.le
          have onwards := later b.1 t (not_lt.mp tBefore)
          rw [meet] at upTo
          calc |chord a b s - interpolate (b :: rest) t|
              ≤ |chord a b s - interpolate (b :: rest) b.1| +
                |interpolate (b :: rest) b.1 - interpolate (b :: rest) t| := abs_sub_le _ _ _
            _ ≤ steep * (b.1 - s) + steep * (t - b.1) := add_le_add upTo onwards
            _ = steep * (t - s) := by ring
        · rw [if_neg sBefore, if_neg tBefore]
          exact later s t le

/-- Whether a function follows the lines from point to point and stays level behind the last. -/
structure Follows (points : List (Rat × Rat)) (f : Rat → Rat) : Prop where
  between : ∀ pair ∈ neighbours points, ∀ t, pair.1.1 ≤ t → t ≤ pair.2.1 →
    f t = chord pair.1 pair.2 t
  after : ∀ last ∈ points.getLast?, ∀ t, last.1 ≤ t → f t = last.2

theorem Follows.tail {f : Rat → Rat} (follows : Follows (a :: b :: rest) f) :
    Follows (b :: rest) f where
  between pair member := follows.between pair (List.mem_cons_of_mem _ member)
  after last isLast := follows.after last (by rwa [List.getLast?_cons_cons])

theorem follows_interpolate (increasing : points.Pairwise fun a b => a.1 < b.1) :
    Follows points (interpolate points) := by
  induction points with
  | nil => exact ⟨fun _ member => (nomatch member), fun _ isLast => (nomatch isLast)⟩
  | cons a rest ih =>
    cases rest with
    | nil =>
      refine ⟨fun _ member => (nomatch member), fun last isLast t le => ?_⟩
      obtain rfl : a = last := by simpa using isLast
      rfl
    | cons b rest =>
      obtain ⟨first, increasingRest⟩ := List.pairwise_cons.mp increasing
      have later := ih increasingRest
      have behind : ∀ c ∈ b :: rest, b.1 ≤ c.1 := fun c member => by
        rcases List.mem_cons.mp member with rfl | further
        · exact le_rfl
        · exact ((List.pairwise_cons.mp increasingRest).1 c further).le
      refine ⟨?_, ?_⟩
      · rw [neighbours_cons, List.forall_mem_cons]
        refine ⟨fun t _ upper => ?_, fun pair member t lower upper => ?_⟩
        · rw [interpolate]
          rcases upper.lt_or_eq with before | rfl
          · rw [if_pos before]
          · rw [if_neg (lt_irrefl _), interpolate_first increasingRest,
              chord_right (first b (by simp))]
        · have notBefore : b.1 ≤ t :=
            (behind pair.1 (List.of_mem_zip member).1).trans lower
          rw [interpolate, if_neg (not_lt.mpr notBefore)]
          exact later.between pair member t lower upper
      · intro last isLast t le
        rw [List.getLast?_cons_cons] at isLast
        have notBefore : b.1 ≤ t := (behind last (List.mem_of_getLast? isLast)).trans le
        rw [interpolate, if_neg (not_lt.mpr notBefore)]
        exact later.after last isLast t le

theorem abs_moment_sub_le (moment : Rat) : |roundTo 2 moment - moment| ≤ 1 / 200 := by
  have moved := abs_roundTo_sub_le 2 moment
  norm_num at moved
  exact moved

theorem Steady.abs_sub_le {steep : Rat} {f : Rat → Rat} (steady : Steady steep f)
    (nonneg : 0 ≤ steep) {s t : Rat} (near : |s - t| ≤ 1 / 200) :
    |f s - f t| ≤ steep * (1 / 200) := by
  rcases le_total s t with le | le
  · have gap : t - s ≤ 1 / 200 := (le_abs_self _).trans (abs_sub_comm s t ▸ near)
    exact (steady s t le).trans (mul_le_mul_of_nonneg_left gap nonneg)
  · have gap : s - t ≤ 1 / 200 := (le_abs_self _).trans near
    rw [abs_sub_comm]
    exact (steady t s le).trans (mul_le_mul_of_nonneg_left gap nonneg)

/-- A little before and behind its points a line goes on where what follows the lines may turn. -/
theorem abs_chord_sub_le {f : Rat → Rat} {steep : Rat}
    (between : ∀ t, a.1 ≤ t → t ≤ b.1 → f t = chord a b t) (before : a.1 ≤ b.1)
    (steady : Steady steep f) (slope_le : |slope a b| ≤ steep) {time : Rat}
    (notEarly : a.1 - 1 / 200 ≤ time) (notLate : time ≤ b.1 + 1 / 200) :
    |chord a b time - f time| ≤ steep * (1 / 100) := by
  have nonneg : 0 ≤ steep := (abs_nonneg _).trans slope_le
  -- Both keep close to the value at the point that the time has left.
  have turned : ∀ at_, f at_ = chord a b at_ → |time - at_| ≤ 1 / 200 →
      |chord a b time - f time| ≤ steep * (1 / 100) := by
    intro moment same near
    have chordNear := (steady_chord slope_le).abs_sub_le nonneg near
    have followed := steady.abs_sub_le nonneg near
    rw [abs_sub_comm, same] at followed
    calc |chord a b time - f time|
        ≤ |chord a b time - chord a b moment| + |chord a b moment - f time| := abs_sub_le _ _ _
      _ ≤ steep * (1 / 200) + steep * (1 / 200) := add_le_add chordNear followed
      _ = steep * (1 / 100) := by ring
  rcases lt_or_ge time a.1 with early | notBefore
  · exact turned a.1 (between a.1 le_rfl before) (by rw [abs_le]; constructor <;> linarith)
  · rcases le_or_gt time b.1 with inside | late
    · rw [between time notBefore inside, sub_self, abs_zero]
      positivity
    · exact turned b.1 (between b.1 before le_rfl) (by rw [abs_le]; constructor <;> linarith)

/-- Behind the written moments of all its points a curve stays at the last one, in whatever order
they come. -/
theorem eval_piecewise_of_past {valuePlaces : Int} (nonneg : 0 ≤ valuePlaces) (slopePlaces : Int)
    {last : Rat × Rat} (isLast : points.getLast? = some last) {time : Rat}
    (past : ∀ point ∈ points.tail, roundTo 2 point.1 ≤ time) :
    (piecewise valuePlaces slopePlaces points).eval time =
      .ok (roundTo valuePlaces.toNat last.2) := by
  induction points with
  | nil => cases isLast
  | cons a rest ih =>
    cases rest with
    | nil =>
      obtain rfl : a = last := by simpa using isLast
      exact eval_num a.2 nonneg time
    | cons b rest =>
      have later := ih (by rwa [List.getLast?_cons_cons] at isLast) fun point member =>
        past point (List.mem_cons_of_mem _ member)
      have moment : (num b.1 2).eval time = .ok (roundTo 2 b.1) := eval_num b.1 (by decide) time
      rw [piecewise]
      split
      · exact later
      · rw [eval_ifBefore moment, if_neg (not_lt.mpr (past b (by simp)))]
        exact later

theorem abs_line_sub_chord_le (a b : Rat × Rat) (valuePlaces slopePlaces : Nat) {reach : Rat}
    {time : Rat} (reached : |time - roundTo 2 a.1| ≤ reach) :
    |roundTo valuePlaces a.2 + roundTo slopePlaces (slope a b) * (time - roundTo 2 a.1) -
        chord a b time| ≤
      1 / 2 / 10 ^ valuePlaces + 1 / 2 / 10 ^ slopePlaces * reach + |slope a b| * (1 / 200) := by
  have parts : roundTo valuePlaces a.2 + roundTo slopePlaces (slope a b) * (time - roundTo 2 a.1) -
      chord a b time =
      (roundTo valuePlaces a.2 - a.2) +
        (roundTo slopePlaces (slope a b) - slope a b) * (time - roundTo 2 a.1) +
        slope a b * (a.1 - roundTo 2 a.1) := by
    unfold chord
    ring
  have value := abs_roundTo_sub_le valuePlaces a.2
  have rise : |(roundTo slopePlaces (slope a b) - slope a b) * (time - roundTo 2 a.1)| ≤
      1 / 2 / 10 ^ slopePlaces * reach := by
    rw [abs_mul]
    exact mul_le_mul (abs_roundTo_sub_le _ _) reached (abs_nonneg _) (by positivity)
  have start : |slope a b * (a.1 - roundTo 2 a.1)| ≤ |slope a b| * (1 / 200) := by
    rw [abs_mul, abs_sub_comm a.1]
    exact mul_le_mul_of_nonneg_left (abs_moment_sub_le _) (abs_nonneg _)
  rw [parts]
  exact (abs_add_le _ _).trans (add_le_add ((abs_add_le _ _).trans (add_le_add value rise)) start)

/-- The induction goes from a point to the next once the time is behind the written moment of that
one; whatever follows the lines keeps its distance to the exact value all along. -/
theorem abs_eval_sub_le {f : Rat → Rat} {valuePlaces slopePlaces : Int}
    (valueNonneg : 0 ≤ valuePlaces) (slopeNonneg : 0 ≤ slopePlaces) {gap steep : Rat}
    (gap_nonneg : 0 ≤ gap) (steep_nonneg : 0 ≤ steep) (steady : Steady steep f)
    (increasing : (a :: rest).Pairwise fun a b => a.1 < b.1) (follows : Follows (a :: rest) f)
    (gaps : ∀ pair ∈ neighbours (a :: rest), pair.2.1 - pair.1.1 ≤ gap)
    (slopes : ∀ pair ∈ neighbours (a :: rest), |slope pair.1 pair.2| ≤ steep) {time : Rat}
    (reached : a.1 ≤ time ∨ roundTo 2 a.1 ≤ time) :
    ∃ value, (piecewise valuePlaces slopePlaces (a :: rest)).eval time = .ok value ∧
      |value - f time| ≤ 1 / 2 / 10 ^ valuePlaces.toNat +
        1 / 2 / 10 ^ slopePlaces.toNat * (gap + 1 / 100) + steep * (3 / 200) := by
  obtain ⟨lower, upper⟩ := abs_le.mp (abs_moment_sub_le a.1)
  have notEarly : a.1 - 1 / 200 ≤ time := by
    rcases reached with reached | reached <;> linarith
  induction rest generalizing a with
  | nil =>
    refine ⟨roundTo valuePlaces.toNat a.2, eval_num a.2 valueNonneg time, ?_⟩
    have value := abs_roundTo_sub_le valuePlaces.toNat a.2
    have level : |a.2 - f time| ≤ steep * (1 / 200) := by
      rcases le_or_gt a.1 time with behind | before
      · rw [follows.after a rfl time behind, sub_self, abs_zero]
        positivity
      · rw [← follows.after a rfl a.1 le_rfl]
        exact steady.abs_sub_le steep_nonneg (by rw [abs_le]; constructor <;> linarith)
    have slack : 0 ≤ 1 / 2 / 10 ^ slopePlaces.toNat * (gap + 1 / 100) := by positivity
    have total := abs_sub_le (roundTo valuePlaces.toNat a.2) a.2 (f time)
    linarith
  | cons b rest ih =>
    obtain ⟨first, increasingRest⟩ := List.pairwise_cons.mp increasing
    have before : a.1 < b.1 := first b (by simp)
    have inHead : (a, b) ∈ neighbours (a :: b :: rest) := by simp [neighbours]
    obtain ⟨nextLower, nextUpper⟩ := abs_le.mp (abs_moment_sub_le b.1)
    have moment : (num b.1 2).eval time = .ok (roundTo 2 b.1) := eval_num b.1 (by decide) time
    rw [piecewise, if_neg (not_le.mpr before), eval_ifBefore moment]
    by_cases taken : time < roundTo 2 b.1
    · rw [if_pos taken]
      refine ⟨_, eval_line a.2 (slope a b) a.1 valueNonneg slopeNonneg time, ?_⟩
      have span : b.1 - a.1 ≤ gap := gaps (a, b) inHead
      have slope_le : |slope a b| ≤ steep := slopes (a, b) inHead
      have reach : |time - roundTo 2 a.1| ≤ gap + 1 / 100 := by
        rw [abs_le]
        constructor
        · rcases reached with reached | reached <;> linarith
        · linarith
      -- The written line keeps to the chord, and the chord to the function.
      have written := abs_line_sub_chord_le a b valuePlaces.toNat slopePlaces.toNat reach
      have turn := abs_chord_sub_le (follows.between (a, b) inHead) before.le steady slope_le
        notEarly (by linarith)
      have total := abs_sub_le (roundTo valuePlaces.toNat a.2 +
        roundTo slopePlaces.toNat (slope a b) * (time - roundTo 2 a.1)) (chord a b time) (f time)
      linarith
    · rw [if_neg taken]
      exact ih increasingRest follows.tail
        (fun pair member => gaps pair (List.mem_cons_of_mem _ member))
        (fun pair member => slopes pair (List.mem_cons_of_mem _ member))
        (.inr (not_lt.mp taken)) nextLower nextUpper (by linarith)

theorem gap_le_longestGap : ∀ pair ∈ neighbours points, pair.2.1 - pair.1.1 ≤ longestGap points :=
  fun _ member => le_greatest (List.mem_map_of_mem (f := fun (a, b) => b.1 - a.1) member)

theorem slope_le_steepest : ∀ pair ∈ neighbours points, |slope pair.1 pair.2| ≤ steepest points :=
  fun _ member => le_greatest (List.mem_map_of_mem (f := fun (a, b) => |slope a b|) member)

theorem ten_zpow_neg {places : Int} (nonneg : 0 ≤ places) :
    (10 : Rat) ^ (-places) = 1 / 10 ^ places.toNat := by
  obtain ⟨count, rfl⟩ := Int.eq_ofNat_of_zero_le nonneg
  rw [zpow_neg, Int.toNat_natCast, zpow_natCast, one_div]

/-- From the first point on, a curve through points in order of time gives the exact value but for
half of the last place of a value, half of the last place of a slope over the longest gap, and what
the steepest line makes of fifteen thousandths. -/
theorem piecewise_near_interpolate (nonempty : points ≠ [])
    (increasing : points.Pairwise fun a b => a.1 < b.1) {valuePlaces slopePlaces : Int}
    (valuePositive : 1 ≤ valuePlaces) (slopePositive : 1 ≤ slopePlaces) {time : Rat}
    (begun : ∀ first ∈ points.head?, first.1 ≤ time) :
    ∃ value, (piecewise valuePlaces slopePlaces points).eval time = .ok value ∧
      |value - interpolate points time| ≤ 1 / 2 * 10 ^ (-valuePlaces) +
        1 / 2 * 10 ^ (-slopePlaces) * (longestGap points + 1 / 100) +
          3 / 200 * steepest points := by
  have valueNonneg : 0 ≤ valuePlaces := by omega
  have slopeNonneg : 0 ≤ slopePlaces := by omega
  cases points with
  | nil => exact absurd rfl nonempty
  | cons a rest =>
    have steep_nonneg : 0 ≤ steepest (a :: rest) := greatest_nonneg _
    obtain ⟨value, evaluated, near⟩ := abs_eval_sub_le valueNonneg slopeNonneg
      (greatest_nonneg _) steep_nonneg
      (steady_interpolate increasing steep_nonneg slope_le_steepest) increasing
      (follows_interpolate increasing) gap_le_longestGap slope_le_steepest
      (.inl (begun a rfl))
    refine ⟨value, evaluated, near.trans_eq ?_⟩
    rw [ten_zpow_neg valueNonneg, ten_zpow_neg slopeNonneg, longestGap]
    ring

/-- The moment of the second point is written as nought, so that its line is passed over. -/
theorem piecewise_near_interpolate_skipping :
    ∃ value, (piecewise 1 2 [(0, 0), (1 / 250, 1), (3 / 2, 1 / 3)]).eval (1 / 500 : Rat) =
        .ok value ∧
      |value - 1 / 2| ≤ 1 / 2 * 10 ^ (-1 : Int) +
        1 / 2 * 10 ^ (-2 : Int) * (187 / 125 + 1 / 100) + 3 / 200 * 250 := by
  have increasing : [((0 : Rat), (0 : Rat)), (1 / 250, 1), (3 / 2, 1 / 3)].Pairwise
      fun a b => a.1 < b.1 := by
    norm_num
  have begun : ∀ first ∈ [((0 : Rat), (0 : Rat)), (1 / 250, 1), (3 / 2, 1 / 3)].head?,
      first.1 ≤ (1 / 500 : Rat) := by
    simp
  have near := piecewise_near_interpolate (by simp) increasing (by decide : (1 : Int) ≤ 1)
    (by decide : (1 : Int) ≤ 2) begun
  norm_num [interpolate, chord, slope, longestGap, steepest, neighbours, greatest] at near ⊢
  exact near

end Screencast.Curve
