import Screencast.Proofs.Number.Lawful
import Screencast.Viewport.Fold

/-!
Where a moment lies to a window, told by the window's two ends. What matters to a run is that a
window which is past stays so.
-/

namespace Screencast.Window

open Number

variable {α : Type} [Number α]

/-- The moment at which a window closes; one of no or negative length closes where it opens. -/
def close (start duration : α) : α :=
  start + larger 0 duration

def progress (time start duration : α) : α :=
  if 0 < larger 0 duration then (time - start) / larger 0 duration else 1

theorem phase_of_before {time start duration : α} (before : time < start) :
    Phase.of time start duration = .before := by
  unfold Phase.of
  rw [if_pos before]

variable [LawfulNumber α] {time start duration : α}

theorem start_le_close (finite : isFinite start = true) (duration : α) :
    start ≤ close start duration :=
  le_add_larger (.inl finite)

theorem phase_of_inside (opened : start ≤ time) (notClosed : time ≤ close start duration) :
    Phase.of time start duration = .inside (progress time start duration) := by
  unfold Phase.of
  rw [if_neg (not_lt_of_le opened)]
  exact if_pos notClosed

theorem phase_of_after (finite : isFinite start = true) (closed : close start duration < time) :
    Phase.of time start duration = .after := by
  have opened : start ≤ time :=
    LawfulNumber.le_trans (start_le_close finite duration) (le_of_lt closed)
  unfold Phase.of
  rw [if_neg (not_lt_of_le opened)]
  exact if_neg (not_le_of_lt closed)

/-- Every comparable moment lies before a window, in it or after it. -/
theorem cases_of_time (finite : isFinite start = true) (duration : α) (comparable : time ≤ time) :
    time < start ∨ (start ≤ time ∧ time ≤ close start duration) ∨ close start duration < time := by
  by_cases before : time < start
  · exact .inl before
  · have opened := le_of_not_lt comparable (LawfulNumber.self_le finite) before
    by_cases inside : time ≤ close start duration
    · exact .inr (.inl ⟨opened, inside⟩)
    · have closes : close start duration ≤ close start duration :=
        LawfulNumber.self_le_right (start_le_close finite duration)
      exact .inr (.inr (lt_of_not_le comparable closes inside))

end Screencast.Window
