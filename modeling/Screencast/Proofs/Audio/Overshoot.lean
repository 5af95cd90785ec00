import Screencast.Proofs.Audio.Ramping

/-!
How far a volume may leave the range of its levels. While no ramp runs it does not. In the course of
a ramp, from its start to its end as these are written, it may pass the level at the end by what the
slope makes of a hundredth of a second and by what the last place of the slope makes of the length.
-/

namespace Screencast.Automation

open Number Curve

/-- Whether a time lies between the start and the end of a ramp as they are written. -/
def Ramp.Runs (ramp : Ramp Rat) (time : Rat) : Prop :=
  roundTo 2 ramp.begin ≤ time ∧ time < roundTo 2 ramp.finish

def Ramp.overshoot (ramp : Ramp Rat) (origin : Rat) : Rat :=
  1 / 2000 + 1 / 20000 * (ramp.finish - ramp.begin + 1 / 100) + 1 / 100 * |ramp.slope origin|

def legs (current : Rat) : List (Ramp Rat) → List (Rat × Ramp Rat)
  | [] => []
  | ramp :: rest => (current, ramp) :: legs ramp.level rest

variable {ramp : Ramp Rat} {rest ramps : List (Ramp Rat)} {current since time value : Rat}

theorem Ramp.overshoot_nonneg (ramp : Ramp Rat) (origin : Rat) : 0 ≤ ramp.overshoot origin := by
  have length := ramp.begin_le_finish
  have slope := abs_nonneg (ramp.slope origin)
  unfold Ramp.overshoot
  linarith

theorem mem_of_mem_legs {leg : Rat × Ramp Rat} (member : leg ∈ legs current ramps) :
    leg.2 ∈ ramps := by
  induction ramps generalizing current with
  | nil => cases member
  | cons ramp rest ih =>
    rcases List.mem_cons.mp member with rfl | later
    · exact List.mem_cons_self ..
    · exact List.mem_cons_of_mem _ (ih later)

theorem roundTo_mem_range (places : Nat) {level : Rat} (inside : level ∈ Set.Icc 0 1) :
    roundTo places level ∈ Set.Icc 0 1 := by
  have low := roundTo_mono places inside.1
  have high := roundTo_mono places inside.2
  rw [show (0 : Rat) = ((0 : Int) : Rat) from rfl, roundTo_intCast] at low
  rw [show (1 : Rat) = ((1 : Int) : Rat) from rfl, roundTo_intCast] at high
  exact ⟨low, high⟩

/-- A ramp that is written as running has a length, and the time is not far from it. -/
theorem Ramp.Runs.bounds (runs : ramp.Runs time) :
    ramp.begin < ramp.finish ∧ ramp.begin - 1 / 200 ≤ time ∧ time ≤ ramp.finish + 1 / 200 := by
  obtain ⟨begun, notOver⟩ := runs
  have start := abs_le.mp (abs_moment_sub_le ramp.begin)
  have stop := abs_le.mp (abs_moment_sub_le ramp.finish)
  refine ⟨?_, by linarith, by linarith⟩
  by_contra notLess
  have same := roundTo_mono 2 (not_lt.mp notLess)
  linarith

theorem Ramp.Runs.abs_sub_le (runs : ramp.Runs time) :
    |time - roundTo 2 ramp.begin| ≤ ramp.finish - ramp.begin + 1 / 100 := by
  obtain ⟨_, _, notLate⟩ := runs.bounds
  have start := abs_le.mp (abs_moment_sub_le ramp.begin)
  rw [abs_of_nonneg (sub_nonneg.mpr runs.1)]
  linarith

theorem Ramp.line_eq (ramp : Ramp Rat) {origin : Rat} (proper : ramp.begin < ramp.finish)
    (time : Rat) : origin + ramp.slope origin * (time - ramp.begin) =
      ramp.level + ramp.slope origin * (time - ramp.finish) := by
  have rise : ramp.slope origin * (ramp.finish - ramp.begin) = ramp.level - origin :=
    div_mul_cancel₀ _ (sub_pos.mpr proper).ne'
  linear_combination rise

section Ramp

variable {origin : Rat} (runs : ramp.Runs time) (originInside : origin ∈ Set.Icc (0 : Rat) 1)
  (levelInside : ramp.level ∈ Set.Icc (0 : Rat) 1)
include runs originInside levelInside

/-- A rising ramp starts where it should and may pass its level. -/
theorem Ramp.Runs.written_of_rising (rising : origin ≤ ramp.level) :
    0 ≤ ramp.written origin time ∧ ramp.written origin time ≤ 1 + ramp.overshoot origin := by
  obtain ⟨proper, _, notLate⟩ := runs.bounds
  have slope_nonneg : 0 ≤ ramp.slope origin :=
    div_nonneg (sub_nonneg.mpr rising) (sub_nonneg.mpr proper.le)
  have roundedNonneg : 0 ≤ roundTo 4 (ramp.slope origin) :=
    (roundTo_intCast 4 0).symm.trans_le (roundTo_mono 4 slope_nonneg)
  constructor
  · exact add_nonneg (roundTo_mem_range 3 originInside).1
      (mul_nonneg roundedNonneg (sub_nonneg.mpr runs.1))
  · have near := abs_le.mp (abs_written_sub_le ramp origin runs.abs_sub_le)
    have ends : origin + ramp.slope origin * (time - ramp.begin) =
        ramp.level + ramp.slope origin * (time - ramp.finish) := ramp.line_eq proper time
    have beyond : ramp.slope origin * (time - ramp.finish) ≤ ramp.slope origin * (1 / 200) :=
      mul_le_mul_of_nonneg_left (by linarith) slope_nonneg
    have steep := le_abs_self (ramp.slope origin)
    have top := levelInside.2
    rw [Ramp.overshoot]
    linarith

theorem Ramp.Runs.written_of_falling (falling : ramp.level ≤ origin) :
    -ramp.overshoot origin ≤ ramp.written origin time ∧ ramp.written origin time ≤ 1 := by
  obtain ⟨proper, _, notLate⟩ := runs.bounds
  have slope_nonpos : ramp.slope origin ≤ 0 :=
    div_nonpos_of_nonpos_of_nonneg (sub_nonpos.mpr falling) (sub_nonneg.mpr proper.le)
  have roundedNonpos : roundTo 4 (ramp.slope origin) ≤ 0 :=
    (roundTo_mono 4 slope_nonpos).trans_eq (roundTo_intCast 4 0)
  constructor
  · have near := abs_le.mp (abs_written_sub_le ramp origin runs.abs_sub_le)
    have ends : origin + ramp.slope origin * (time - ramp.begin) =
        ramp.level + ramp.slope origin * (time - ramp.finish) := ramp.line_eq proper time
    have beyond : ramp.slope origin * (1 / 200) ≤ ramp.slope origin * (time - ramp.finish) :=
      mul_le_mul_of_nonpos_left (by linarith) slope_nonpos
    have steep := neg_abs_le (ramp.slope origin)
    have bottom := levelInside.1
    rw [Ramp.overshoot]
    linarith
  · have start := (roundTo_mem_range 3 originInside).2
    have fall := mul_nonpos_of_nonpos_of_nonneg roundedNonpos (sub_nonneg.mpr runs.1)
    rw [Ramp.written]
    linarith

end Ramp

/-- Whether a value keeps to the range of the levels at a time, from nought to one: without fail if
no ramp runs, and but for the overshoot at the end of a ramp that does. -/
structure KeepsRange (initial : Rat) (ramps : List (Ramp Rat)) (time value : Rat) : Prop where
  idle : (∀ ramp ∈ ramps, ¬ ramp.Runs time) → value ∈ Set.Icc 0 1
  rising : ∀ leg ∈ legs initial ramps, leg.2.Runs time → leg.1 ≤ leg.2.level →
    0 ≤ value ∧ value ≤ 1 + leg.2.overshoot leg.1
  falling : ∀ leg ∈ legs initial ramps, leg.2.Runs time → leg.2.level ≤ leg.1 →
    -leg.2.overshoot leg.1 ≤ value ∧ value ≤ 1

namespace KeepsRange

theorem of_mem_range (inside : value ∈ Set.Icc 0 1) : KeepsRange current ramps time value where
  idle _ := inside
  rising leg _ _ _ := ⟨inside.1, by linarith [inside.2, leg.2.overshoot_nonneg leg.1]⟩
  falling leg _ _ _ := ⟨by linarith [inside.1, leg.2.overshoot_nonneg leg.1], inside.2⟩

theorem cons (notRuns : ¬ ramp.Runs time) (keeps : KeepsRange ramp.level rest time value) :
    KeepsRange current (ramp :: rest) time value where
  idle none := keeps.idle fun other member => none other (List.mem_cons_of_mem _ member)
  rising leg member runs := by
    rcases List.mem_cons.mp member with rfl | later
    · exact absurd runs notRuns
    · exact keeps.rising leg later runs
  falling leg member runs := by
    rcases List.mem_cons.mp member with rfl | later
    · exact absurd runs notRuns
    · exact keeps.falling leg later runs

theorem of_runs (runs : ramp.Runs time) (behind : ∀ later ∈ rest, ramp.finish ≤ later.begin)
    (currentInside : current ∈ Set.Icc (0 : Rat) 1)
    (levelInside : ramp.level ∈ Set.Icc (0 : Rat) 1) :
    KeepsRange current (ramp :: rest) time (ramp.written current time) := by
  have alone : ∀ leg ∈ legs current (ramp :: rest), leg.2.Runs time → leg = (current, ramp) := by
    intro leg member legRuns
    refine (List.mem_cons.mp member).resolve_right fun later => ?_
    have order := roundTo_mono 2 (behind leg.2 (mem_of_mem_legs later))
    exact absurd (runs.2.trans_le order) (not_lt.mpr legRuns.1)
  refine ⟨fun none => absurd runs (none ramp (by simp)), fun leg member legRuns rising => ?_,
    fun leg member legRuns falling => ?_⟩
  · obtain rfl := alone leg member legRuns
    exact runs.written_of_rising currentInside levelInside rising
  · obtain rfl := alone leg member legRuns
    exact runs.written_of_falling currentInside levelInside falling

end KeepsRange

theorem exists_eval_keepsRange (reached : roundTo 2 since ≤ time) (successive : Successive ramps)
    (currentInside : current ∈ Set.Icc (0 : Rat) 1)
    (inside : ∀ ramp ∈ ramps, ramp.level ∈ Set.Icc (0 : Rat) 1) :
    ∃ value, (piecewise 3 4 ((since, current) :: corners current ramps)).eval time = .ok value ∧
      KeepsRange current ramps time value := by
  induction ramps generalizing since current with
  | nil =>
    exact ⟨_, eval_num current (by decide : (0 : Int) ≤ 3) time,
      .of_mem_range (roundTo_mem_range 3 currentInside)⟩
  | cons ramp rest ih =>
    have levelInside := inside ramp (by simp)
    have behind : ∀ later ∈ rest, ramp.finish ≤ later.begin :=
      (List.pairwise_cons.mp successive.pairwise).1
    rw [eval_corners_cons reached]
    by_cases before : time < roundTo 2 ramp.begin
    · rw [if_pos before]
      exact ⟨_, rfl, .of_mem_range (roundTo_mem_range 3 currentInside)⟩
    · rw [if_neg before]
      by_cases running : time < roundTo 2 ramp.finish
      · rw [if_pos running]
        exact ⟨_, rfl, .of_runs ⟨not_lt.mp before, running⟩ behind currentInside levelInside⟩
      · rw [if_neg running]
        obtain ⟨value, evaluated, keeps⟩ := ih (not_lt.mp running) successive.tail levelInside
          fun later member => inside later (List.mem_cons_of_mem _ member)
        exact ⟨value, evaluated, keeps.cons fun runs => running runs.2⟩

/-- Where no two ramps overlap the volume keeps to the range of its levels but for the ends of the
ramps. -/
theorem volume_keepsRange {initial : Rat} {events : List (Event Rat)} {ramps : List (Ramp Rat)}
    (sorted : Order.StablySorted Ramp.time (events.filterMap ramp?) ramps) (changed : ramps ≠ [])
    (successive : Successive ramps) (initialInside : initial ∈ Set.Icc (0 : Rat) 1)
    (inside : ∀ ramp ∈ ramps, ramp.level ∈ Set.Icc (0 : Rat) 1) :
    ∃ curve, ofEvents initial events = some curve ∧ ∀ time, 0 ≤ time →
      ∃ value, curve.eval time = .ok value ∧ KeepsRange initial ramps time value := by
  refine ⟨_, ofEvents_of_stablySorted initial changed sorted, fun time begun => ?_⟩
  have start : roundTo 2 0 ≤ time := (roundTo_intCast 2 0).trans_le begun
  exact exists_eval_keepsRange start successive initialInside inside

/-- In the course of ten minutes the slope that is written may lead three hundredths too far; once
the ramp is over nothing of that is left. -/
theorem volume_keepsRange_long :
    let events : List (Event Rat) := [⟨2, 0, .volume (some (.amount 1)) 600000⟩]
    ∃ curve late after, ofEvents 0 events = some curve ∧ curve.eval 599 = .ok late ∧
      (0 ≤ late ∧ late ≤ 1 + 31 / 1000) ∧ curve.eval 600 = .ok after ∧ after ∈ Set.Icc 0 1 := by
  intro events
  let ramp : Ramp Rat := ⟨0, 600000, 1⟩
  have sorted : Order.StablySorted Ramp.time (events.filterMap ramp?) [ramp] :=
    ⟨.refl _, List.pairwise_singleton .., fun _ => rfl⟩
  have length : ramp.begin = 0 ∧ ramp.finish = 600 := by decide +kernel
  have written : roundTo 2 ramp.begin = 0 ∧ roundTo 2 ramp.finish = 600 := by
    rw [length.1, length.2]
    exact ⟨roundTo_intCast 2 0, roundTo_intCast 2 600⟩
  have initialInside : (0 : Rat) ∈ Set.Icc 0 1 := by simp
  obtain ⟨curve, made, keeps⟩ := volume_keepsRange sorted (by simp) (.singleton ramp)
    initialInside (by simp [ramp])
  obtain ⟨late, evaluated, lateKeeps⟩ := keeps 599 (by norm_num)
  obtain ⟨after, evaluatedToo, afterKeeps⟩ := keeps 600 (by norm_num)
  refine ⟨curve, late, after, made, evaluated, ?_, evaluatedToo, afterKeeps.idle ?_⟩
  · have runs : ramp.Runs 599 := by rw [Ramp.Runs, written.1, written.2]; norm_num
    obtain ⟨low, high⟩ := lateKeeps.rising (0, ramp) (by simp [legs]) runs (by simp [ramp])
    have small : ramp.overshoot 0 ≤ 31 / 1000 := by decide +kernel
    exact ⟨low, high.trans (by linarith)⟩
  · rintro other member ⟨_, notOver⟩
    obtain rfl := List.mem_singleton.mp member
    rw [written.2] at notOver
    norm_num at notOver

/-- A ramp of twelve thousandths of a second is written as one of two hundredths, and leads far
beyond its level at the end. -/
theorem overshoot_of_short_ramp :
    let events : List (Event Rat) := [⟨2, 1004, .volume (some (.amount 1)) 12⟩]
    let ramps : List (Ramp Rat) := [⟨1004, 12, 1⟩]
    events.filterMap ramp? = ramps ∧ Successive ramps ∧
      (∀ ramp ∈ ramps, 0 ≤ ramp.time ∧ 0 ≤ ramp.length ∧ ramp.level ∈ Set.Icc 0 1) ∧
      ∃ curve value, ofEvents 0 events = some curve ∧ curve.eval (1019 / 1000) = .ok value ∧
        value ∉ Set.Icc (-1 / 1000) (1001 / 1000) := by
  intro events ramps
  let ramp : Ramp Rat := ⟨1004, 12, 1⟩
  have runs : ¬ 1019 / 1000 < roundTo 2 ramp.begin ∧ 1019 / 1000 < roundTo 2 ramp.finish := by
    decide +kernel
  have heard : (ofRamps 0 ramps).eval (1019 / 1000) = .ok (ramp.written 0 (1019 / 1000)) := by
    have start : roundTo 2 0 ≤ (1019 / 1000 : Rat) := by decide +kernel
    exact (eval_corners_cons start).trans ((if_neg runs.1).trans (if_pos runs.2))
  have high : 1001 / 1000 < ramp.written 0 (1019 / 1000) := by decide +kernel
  exact ⟨rfl, .singleton _, by simp [ramps], _, _, rfl, heard, fun inside => high.not_ge inside.2⟩

end Screencast.Automation
