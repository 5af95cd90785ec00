import Screencast.Number.Basic
import Screencast.Json.Basic
import Screencast.Path

/-!
What happens on a channel: a file begins to play, the channel stops, its volume changes. Times are
milliseconds from the start of the recording.
-/

namespace Screencast

/-- A volume as it was declared: an amount, yes or no for all of it or nothing, or some other
value. -/
inductive Loudness (α : Type) where
  | amount (value : α)
  | switch (on : Bool)
  | other (value : Json)

structure Clip (α : Type) where
  /-- A clip without a file makes no sound. -/
  file : Option Path
  fadeIn : α
  fadeOut : α
  loop : Bool
  volume : Option (Loudness α)
  /-- How long the file is. -/
  length : α
  /-- Where in the file it begins. -/
  offset : α

inductive Action (α : Type) where
  | play (clip : Clip α)
  | stop (fadeOut : α)
  /-- The volume goes to a level in the course of `ramp`. -/
  | volume (level : Option (Loudness α)) (ramp : α)

structure Event (α : Type) where
  channel : Int
  time : α
  action : Action α

variable {α : Type} [Number α]

def Loudness.toAmount : Loudness α → Except Failure α
  | amount value => .ok value
  | switch on => .ok (if on then 1 else 0)
  | other (.string _) => .error (.noFixedForm "str")
  | other (.int _) => .error .integerTooLarge
  | other _ => .error .wrongType

def Loudness.isFull : Loudness α → Bool
  | amount value => value == 1
  | switch on => on
  | other _ => false

namespace Clip

def playable (clip : Clip α) : α :=
  Number.larger 0 (clip.length - clip.offset)

/-- When a clip that began at a time is over by itself; one that loops never is. -/
def naturalEnd? (clip : Clip α) (time : α) : Option α :=
  if clip.loop then none else some (time + clip.playable)

end Clip

def Event.stopsFrom (time : α) (event : Event α) : Option (α × α) :=
  match event.action with
  | .stop fadeOut => if time ≤ event.time then some (event.time, fadeOut) else none
  | _ => none

end Screencast
