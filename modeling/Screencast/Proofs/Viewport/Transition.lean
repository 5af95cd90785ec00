import Mathlib.Algebra.Order.Group.MinMax
import Screencast.Proofs.Viewport.Hull
import Screencast.Proofs.Viewport.Window

/-!
A transition over all of time, counted exactly: it waits at its origin until its window opens, is on
its way inside the window and rests at its target from the close on. It goes one way only, and
nowhere faster than at twice the speed that it has on the whole.
-/

namespace Screencast

section Definitions

variable {α : Type} [Number α]

/-- How much of a window has passed, none of it before and all of it after. -/
def Phase.progress : Phase α → α
  | before => 0
  | inside progress => progress
  | after => 1

def Ease.transition (origin target start duration time : α) : α :=
  match Phase.of time start duration with
  | .before => origin
  | .inside progress => interpolate origin target progress
  | .after => target

end Definitions

namespace Phase

variable {start duration a b : Rat}

theorem progress_mem (time start duration : Rat) :
    0 ≤ (of time start duration).progress ∧ (of time start duration).progress ≤ 1 := by
  cases phase : of time start duration with
  | before => exact ⟨le_rfl, zero_le_one⟩
  | inside progress => exact progress_bounds phase
  | after => exact ⟨zero_le_one, le_rfl⟩

section Window

open Window

theorem progress_of_nonpos (momentary : duration ≤ 0) (time : Rat) :
    (of time start duration).progress = if time < start then 0 else 1 := by
  have none : Number.larger 0 duration = 0 := if_neg (not_lt.mpr momentary)
  rcases cases_of_time (rfl : Number.isFinite start = true) duration (le_refl time) with
    early | ⟨opened, notClosed⟩ | closed
  · rw [phase_of_before early, if_pos early]
    rfl
  · rw [phase_of_inside opened notClosed, if_neg (not_lt.mpr opened), Phase.progress,
      Window.progress, none]
    exact if_neg (lt_irrefl (0 : Rat))
  · have opened : start ≤ time := (start_le_close rfl duration).trans closed.le
    rw [phase_of_after rfl closed, if_neg (not_lt.mpr opened)]
    rfl

/-- In a window of some length the progress is the part of it that lies behind, cut off at both
ends. -/
theorem progress_of_pos (long : 0 < duration) (time : Rat) :
    (of time start duration).progress = max 0 (min 1 ((time - start) / duration)) := by
  have whole : Number.larger 0 duration = duration := if_pos long
  have close : close start duration = start + duration := congrArg (start + ·) whole
  rcases cases_of_time (rfl : Number.isFinite start = true) duration (le_refl time) with
    early | ⟨opened, notClosed⟩ | closed
  · have nothing : (time - start) / duration ≤ 0 :=
      div_nonpos_of_nonpos_of_nonneg (by linarith) long.le
    rw [phase_of_before early, max_eq_left ((min_le_right _ _).trans nothing)]
    rfl
  · rw [close] at notClosed
    have since : 0 ≤ (time - start) / duration := div_nonneg (by linarith) long.le
    have part : (time - start) / duration ≤ 1 := (div_le_one long).mpr (by linarith)
    rw [phase_of_inside opened (close ▸ notClosed), min_eq_right part, max_eq_right since,
      Phase.progress, Window.progress, whole]
    exact if_pos long
  · rw [close] at closed
    have all : 1 ≤ (time - start) / duration := (one_le_div long).mpr (by linarith)
    rw [phase_of_after rfl (close ▸ closed), min_eq_left all, max_eq_right zero_le_one]
    rfl

theorem progress_of_closed {time : Rat} (closed : close start duration ≤ time) :
    (of time start duration).progress = 1 := by
  rcases lt_or_ge 0 duration with long | momentary
  · have close : close start duration = start + duration :=
      congrArg (start + ·) (if_pos long)
    have all : 1 ≤ (time - start) / duration := (one_le_div long).mpr (by linarith)
    rw [progress_of_pos long, min_eq_left all, max_eq_right zero_le_one]
  · have opened : start ≤ time := (start_le_close rfl duration).trans closed
    rw [progress_of_nonpos momentary, if_neg (not_lt.mpr opened)]

end Window

theorem progress_mono (le : a ≤ b) :
    (of a start duration).progress ≤ (of b start duration).progress := by
  rcases lt_or_ge 0 duration with long | momentary
  · rw [progress_of_pos long, progress_of_pos long]
    gcongr
  · rw [progress_of_nonpos momentary, progress_of_nonpos momentary]
    by_cases early : b < start
    · rw [if_pos early, if_pos (le.trans_lt early)]
    · rw [if_neg early]
      split
      · exact zero_le_one
      · exact le_rfl

theorem abs_progress_sub_le (start : Rat) (long : 0 < duration) (a b : Rat) :
    |(of a start duration).progress - (of b start duration).progress| ≤ |a - b| / duration := by
  have cut : |min 1 ((a - start) / duration) - min 1 ((b - start) / duration)| ≤
      |(a - start) / duration - (b - start) / duration| := by
    simpa using abs_min_sub_min_le_max 1 ((a - start) / duration) 1 ((b - start) / duration)
  have gone : (a - start) / duration - (b - start) / duration = (a - b) / duration := by ring
  rw [gone, abs_div, abs_of_pos long] at cut
  rw [progress_of_pos long, progress_of_pos long, max_comm 0, max_comm 0]
  exact (abs_max_sub_max_le_abs _ _ _).trans cut

end Phase

namespace Ease

variable {a b : Rat}

theorem inOut_zero : inOut (0 : Rat) = 0 := by
  have early : (0 : Rat) < Number.half := by
    change (0 : Rat) < 1 / 2
    norm_num
  rw [inOut, if_pos early]
  change (2 : Rat) * 0 * 0 = 0
  norm_num

theorem inOut_eq (t : Rat) :
    inOut t = if t < 1 / 2 then 2 * t ^ 2 else 1 - 2 * (1 - t) ^ 2 := by
  unfold inOut
  rw [rest_eq]
  change (if t < 1 / 2 then (2 : Rat) * t * t
    else (1 : Rat) - (2 - 2 * t) * (2 - 2 * t) / 2) = _
  split <;> ring

/-- The ease never goes back, and at most at twice the speed of its progress. -/
theorem inOut_sub_bounds (begun : 0 ≤ a) (le : a ≤ b) (notPast : b ≤ 1) :
    0 ≤ inOut b - inOut a ∧ inOut b - inOut a ≤ 2 * (b - a) := by
  rw [inOut_eq, inOut_eq]
  by_cases bEarly : b < 1 / 2
  · have aEarly : a < 1 / 2 := le.trans_lt bEarly
    rw [if_pos bEarly, if_pos aEarly]
    constructor <;> nlinarith
  · rw [if_neg bEarly]
    by_cases aEarly : a < 1 / 2
    · -- The two parabolas meet halfway.
      rw [if_pos aEarly]
      constructor <;> nlinarith [not_lt.mp bEarly]
    · rw [if_neg aEarly]
      constructor <;> nlinarith [not_lt.mp aEarly, not_lt.mp bEarly]

theorem abs_inOut_sub_le (left : 0 ≤ a ∧ a ≤ 1) (right : 0 ≤ b ∧ b ≤ 1) :
    |inOut a - inOut b| ≤ 2 * |a - b| := by
  rcases le_total a b with le | le
  · obtain ⟨nonneg, bound⟩ := inOut_sub_bounds left.1 le right.2
    rw [abs_sub_comm, abs_of_nonneg nonneg, abs_sub_comm, abs_of_nonneg (sub_nonneg.mpr le)]
    exact bound
  · obtain ⟨nonneg, bound⟩ := inOut_sub_bounds right.1 le left.2
    rw [abs_of_nonneg nonneg, abs_of_nonneg (sub_nonneg.mpr le)]
    exact bound

/-- Whether a value waits at an origin, goes to a target in the course of a window and rests there,
always on the way from the one to the other and without a leap. -/
structure Smooth (origin target start duration : Rat) (value : Rat → Rat) : Prop where
  waiting : ∀ time < start, value time = origin
  between : ∀ time, Spans [origin, target] (value time)
  rising : origin ≤ target → Monotone value
  falling : target ≤ origin → Antitone value
  arrived : ∀ time, Window.close start duration ≤ time → value time = target
  steady : 0 < duration → ∀ a b,
    |value a - value b| ≤ 2 * |target - origin| / duration * |a - b|

variable (origin target start duration : Rat)

theorem transition_eq (time : Rat) :
    transition origin target start duration time =
      origin + (target - origin) * inOut (Phase.of time start duration).progress := by
  unfold transition
  cases Phase.of time start duration with
  | before =>
    change origin = origin + (target - origin) * inOut (0 : Rat)
    rw [inOut_zero]
    ring
  | inside progress => rfl
  | after =>
    change target = origin + (target - origin) * inOut (1 : Rat)
    rw [inOut_one]
    ring

theorem abs_transition_sub_le {duration : Rat} (long : 0 < duration) (a b : Rat) :
    |transition origin target start duration a - transition origin target start duration b| ≤
      2 * |target - origin| / duration * |a - b| := by
  have apart : transition origin target start duration a -
      transition origin target start duration b = (target - origin) *
        (inOut (Phase.of a start duration).progress -
          inOut (Phase.of b start duration).progress) := by
    rw [transition_eq, transition_eq]
    ring
  have eased := abs_inOut_sub_le (Phase.progress_mem a start duration)
    (Phase.progress_mem b start duration)
  have gone := Phase.abs_progress_sub_le start long a b
  calc |transition origin target start duration a - transition origin target start duration b|
      = |target - origin| * |inOut (Phase.of a start duration).progress -
          inOut (Phase.of b start duration).progress| := by rw [apart, abs_mul]
    _ ≤ |target - origin| * (2 * (|a - b| / duration)) := by gcongr; linarith
    _ = 2 * |target - origin| / duration * |a - b| := by ring

/-- A transition leads from its origin to its target, smoothly and nowhere else. -/
theorem transition_smooth :
    (∀ time, 0 ≤ (Phase.of time start duration).progress ∧
      (Phase.of time start duration).progress ≤ 1) ∧
    Smooth origin target start duration (transition origin target start duration) := by
  have within := fun time => Phase.progress_mem time start duration
  have onwards : ∀ a b : Rat, a ≤ b →
      inOut (Phase.of a start duration).progress ≤ inOut (Phase.of b start duration).progress :=
    fun a b le => sub_nonneg.mp
      (inOut_sub_bounds (within a).1 (Phase.progress_mono le) (within b).2).1
  refine ⟨within, ?waiting, ?between, ?rising, ?falling, ?arrived, ?steady⟩
  case waiting =>
    intro time early
    rw [transition, Window.phase_of_before early]
  case between =>
    intro time
    rw [transition_eq]
    obtain ⟨some_, all⟩ := inOut_bounds (within time).1 (within time).2
    exact (Spans.of_mem (by simp)).partway (.of_mem (by simp)) some_ all
  case rising =>
    intro forwards a b le
    rw [transition_eq, transition_eq]
    have gain := mul_le_mul_of_nonneg_left (onwards a b le) (sub_nonneg.mpr forwards)
    linarith
  case falling =>
    intro backwards a b le
    rw [transition_eq, transition_eq]
    have loss := mul_le_mul_of_nonpos_left (onwards a b le) (sub_nonpos.mpr backwards)
    linarith
  case arrived =>
    intro time closed
    rw [transition_eq, Phase.progress_of_closed closed, inOut_one]
    ring
  case steady => exact fun long => abs_transition_sub_le origin target start long

/-- A quarter of the way through the window an eighth of the distance is done. -/
example : transition (0 : Rat) 8 2 4 3 = 1 := by decide +kernel

end Ease

end Screencast
