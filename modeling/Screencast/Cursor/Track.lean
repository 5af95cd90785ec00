import Screencast.Number.Basic

/-!
The track of the cursor: where it was at some moments, in milliseconds. `Track.positionAt` says
where it was at any moment: at the first sample before it, at the last after it, on the line in
between.
-/

namespace Screencast

/-- A place in the frame, in pixels. -/
structure Point (α : Type) where
  x : α
  y : α
deriving Repr, DecidableEq

structure Sample (α : Type) where
  time : α
  x : α
  y : α
deriving Repr, DecidableEq

abbrev Track (α : Type) := List (Sample α)

variable {α : Type}

def Sample.point (sample : Sample α) : Point α := ⟨sample.x, sample.y⟩

namespace Track

variable [Number α]

def between (time : α) (before after : Sample α) : Point α :=
  if time == before.time then before.point
  else if time == after.time then after.point
  else
    let ratio := (time - before.time) / (after.time - before.time)
    ⟨before.x + (after.x - before.x) * ratio, before.y + (after.y - before.y) * ratio⟩

/-- The place within the first two neighbours whose times enclose the moment. -/
def inside? (time : α) : Track α → Option (Point α)
  | before :: after :: rest =>
    if before.time ≤ time ∧ time ≤ after.time then some (between time before after)
    else inside? time (after :: rest)
  | _ => none

/-- Where the cursor was; nowhere recorded is the corner of the frame. -/
def positionAt (track : Track α) (time : α) : Point α :=
  match track with
  | [] => ⟨0, 0⟩
  | first :: rest =>
    let last := (first :: rest).getLast (List.cons_ne_nil first rest)
    if time ≤ first.time then first.point
    else if last.time ≤ time then last.point
    else (inside? time track).getD last.point

end Track

end Screencast
