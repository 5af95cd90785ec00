import Screencast.Viewport.Command
import Screencast.Viewport.Easing

/-!
One frame of the viewport. Each command is applied to the frame in turn. What outlives the frame is
the settled state: the zoom and the centre that were reached, the centre each pan set out from, and
the pans whose end has been taken over.
-/

namespace Screencast

/-- What is seen at a moment, in seconds. -/
structure Frame (α : Type) where
  time : α
  zoom : Zoom α
  center : Point α

structure Settled (α : Type) where
  zoom : α
  center : Point α
  /-- The centre at the opening of each pan's window, by the pan's index. -/
  origins : Table Nat (Point α) := []
  /-- The pans whose target has become the centre. -/
  committed : List Nat := []

variable {α : Type} [Number α]

/-- The place a target names; the mouse is nowhere if no track was recorded. -/
def Target.place (track : Track α) (time : α) (fallback : Point α) : Target α → Point α
  | .point place => place
  | .mouse => if track.isEmpty then fallback else track.positionAt time

/-- Whether a moment lies between two others, both included; the end is at least the start. -/
def within (time start stop : α) : Bool :=
  start ≤ time && time ≤ Number.larger start stop

namespace Frame

def follow (frame : Frame α) (start stop : α) (zoom : FollowZoom α) (track : Track α) : Frame α :=
  if within frame.time start stop then
    { frame with
      center := Target.mouse.place track (frame.time * 1000) frame.center
      zoom := zoom.set?.getD frame.zoom }
  else frame

def hold (frame : Frame α) (start stop : α) (settled : Settled α) : Frame α :=
  if within frame.time start stop then
    { frame with zoom := .level settled.zoom, center := settled.center }
  else frame

end Frame

namespace Settled

def zoomStep (settled : Settled α) (frame : Frame α) (level start duration : α)
    (center : Target α) (track : Track α) : Frame α × Settled α :=
  match Phase.of frame.time start duration with
  | .before => (frame, settled)
  | .inside progress =>
    ({ frame with
      zoom := .level (Ease.interpolate settled.zoom level progress)
      center := center.place track (frame.time * 1000) frame.center }, settled)
  | .after => ({ frame with zoom := .level level }, { settled with zoom := level })

/-- The centre a pan sets out from: the one noted, or where the frame is now. -/
def origin (settled : Settled α) (index : Nat) (frame : Frame α) : Point α :=
  (settled.origins.find? index).getD frame.center

def noteOrigin (settled : Settled α) (index : Nat) (frame : Frame α) : Settled α :=
  match settled.origins.find? index with
  | some _ => settled
  | none => { settled with origins := settled.origins.put index frame.center }

/-- The end of a pan's window in milliseconds. -/
def endOf (start duration : α) : α :=
  (start + Number.larger 0 duration) * 1000

/-- A pan: on its way inside its window; past it the target becomes the settled centre, once. -/
def panStep (settled : Settled α) (index : Nat) (frame : Frame α) (goal : Target α)
    (start duration : α) (track : Track α) : Frame α × Settled α :=
  match Phase.of frame.time start duration with
  | .before => (frame, settled)
  | .inside progress =>
    let origin := settled.origin index frame
    let target := goal.place track (frame.time * 1000) frame.center
    ({ frame with center :=
        ⟨Ease.interpolate origin.x target.x progress,
          Ease.interpolate origin.y target.y progress⟩ },
      settled.noteOrigin index frame)
  | .after =>
    let noted := settled.noteOrigin index frame
    if settled.committed.contains index then (frame, noted)
    else
      let target := goal.place track (endOf start duration) (settled.origin index frame)
      (frame, { noted with center := target, committed := noted.committed ++ [index] })

end Settled

def Command.apply (index : Nat) (command : Command α) (track : Track α)
    (reached : Frame α × Settled α) : Frame α × Settled α :=
  let (frame, settled) := reached
  match command with
  | .follow start stop level => (frame.follow start stop level track, settled)
  | .zoom level start duration center => settled.zoomStep frame level start duration center track
  | .pan goal start duration => settled.panStep index frame goal start duration track
  | .hold start stop => (frame.hold start stop settled, settled)

def Command.applyAll (commands : List (Command α)) (track : Track α)
    (start : Frame α × Settled α) : Frame α × Settled α :=
  commands.zipIdx.foldl (fun reached (command, index) => command.apply index track reached) start

end Screencast
