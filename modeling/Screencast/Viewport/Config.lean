import Screencast.Viewport.Command

/-!
The viewport section of a scene. Each item of it declares one command: a follow of the mouse, a
zoom, a pan or a hold; an item that is none of these is passed over.
-/

namespace Screencast

variable {α : Type} [Number α]

namespace Target

/-- A target: an object gives a place, anything else is the mouse. -/
def ofJson : Json → Except Failure (Target α)
  | .object members => do
    let place : Json := .object members
    let x ← (← place.item "x").toFloat
    let y ← (← place.item "y").toFloat
    pure (.point ⟨Number.ofFloat x, Number.ofFloat y⟩)
  | _ => .ok .mouse

end Target

namespace FollowZoom

def ofJson : Json → FollowZoom α
  | .null => unset
  | .float x => level (Number.ofFloat x)
  | .int n => whole n
  | value => other value

end FollowZoom

namespace Command

/-- A number that counts as absent if it is nought. -/
def numberOr (default : α) (key : String) (item : Json) : Except Failure α := do
  let value ← item.memberOrNull key
  if value.truthy then value.toFloat.map Number.ofFloat else .ok default

def followEnd : α := 999

def transition : α := Number.half

def followOf (item : Json) : Except Failure (Command α) := do
  let start ← numberOr 0 "from" item
  let stop ← numberOr followEnd "to" item
  pure (.follow start stop (FollowZoom.ofJson (← item.memberOrNull "zoom")))

def zoomOf (level item : Json) : Except Failure (Command α) := do
  let level ← level.toFloat
  let start ← numberOr 0 "at" item
  let duration ← numberOr transition "duration" item
  let center ← Target.ofJson (← item.memberOrNull "center")
  pure (.zoom (Number.ofFloat level) start duration center)

def panOf (goal item : Json) : Except Failure (Command α) := do
  let goal ← Target.ofJson goal
  let start ← numberOr 0 "at" item
  pure (.pan goal start (← numberOr transition "duration" item))

def holdOf (item : Json) : Except Failure (Command α) := do
  let start ← numberOr 0 "from" item
  pure (.hold start (← numberOr 0 "to" item))

def isMouse : Json → Bool
  | .string "mouse" => true
  | _ => false

def ofJson? (item : Json) : Except Failure (Option (Command α)) := do
  if isMouse (← item.memberOrNull "follow") then return some (← followOf item)
  match ← item.memberOrNull "zoom" with
  | .null =>
    let goal ← item.memberOrNull "pan"
    if goal.truthy then return some (← panOf goal item)
    if (← item.memberOrNull "hold").truthy then return some (← holdOf item)
    return none
  | level => return some (← zoomOf level item)

def listOfJson (scene : Json) : Except Failure (List (Command α)) := do
  if !scene.truthy then return []
  let declared ← scene.memberOrNull "viewport"
  if !declared.truthy then return []
  let items ← declared.elements
  return (← items.mapM ofJson?).filterMap id

end Command

end Screencast
