import Screencast.Audio.Event
import Screencast.Curve.Piecewise
import Screencast.Order

/-!
The volume of a channel over time, as its volume events command it. From each event on the volume
goes to the new level in the course of the event's ramp and stays there.
-/

namespace Screencast.Automation

variable {α : Type} [Number α]

structure Ramp (α : Type) where
  time : α
  length : α
  level : α
deriving Repr, DecidableEq

def ramp? (event : Event α) : Option (Ramp α) :=
  match event.action with
  | .volume (some (.amount level)) length => some ⟨event.time, length, level⟩
  | .volume (some (.switch on)) length => some ⟨event.time, length, if on then 1 else 0⟩
  | _ => none

/-- The corners of the curve, in seconds: each ramp's start at the level before it and its end at
its own. -/
def corners (current : α) : List (Ramp α) → List (α × α)
  | [] => []
  | ramp :: rest =>
    (ramp.time / 1000, current) ::
      ((ramp.time + Number.larger 0 ramp.length) / 1000, ramp.level) ::
        corners ramp.level rest

def ofRamps (initial : α) (ramps : List (Ramp α)) : Curve α :=
  .piecewise 3 4 ((0, initial) :: corners initial (Order.sortOn Ramp.time ramps))

/-- The curve of a channel's events; without a volume event there is none. -/
def ofEvents (initial : α) (events : List (Event α)) : Option (Curve α) :=
  match events.filterMap ramp? with
  | [] => none
  | ramps => some (ofRamps initial ramps)

end Screencast.Automation
