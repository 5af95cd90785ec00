import Screencast.Cursor.Track
import Screencast.Json.Coerce
import Screencast.Order

/-!
The commands that move the viewport. Each has a time at which it starts; `sortByStart` puts them in
the order in which they are applied, those that start together in the order of their declaration.
-/

namespace Screencast

inductive Target (α : Type) where
  | mouse
  | point (place : Point α)
deriving Repr, DecidableEq

/-- The zoom of a frame. A whole number stays one, of any size, until it is written or compared
with a level; of any other value that was declared nothing can be made. -/
inductive Zoom (α : Type) where
  | level (value : α)
  | whole (n : Int)
  | other (value : Json)
deriving Repr

inductive FollowZoom (α : Type) where
  | unset
  | level (value : α)
  | whole (n : Int)
  | other (value : Json)
deriving Repr

inductive Command (α : Type) where
  /-- The centre goes with the cursor. -/
  | follow (start stop : α) (zoom : FollowZoom α)
  /-- The zoom goes to a level. -/
  | zoom (level start duration : α) (center : Target α)
  /-- The centre goes to a place. -/
  | pan (goal : Target α) (start duration : α)
  /-- The picture stays as it was settled last. -/
  | hold (start stop : α)
deriving Repr

variable {α : Type} [Number α]

namespace Zoom

def toNumber : Zoom α → Except Failure α
  | level value => .ok value
  | whole n => Number.ofInt? n
  | other (.string _) => .error (.noFixedForm "str")
  | other _ => .error .wrongType

/-- How far it is up from one zoom to another. Between whole numbers it is counted before it is
rounded, so it may be in range where these are not, or out of it where they are in. -/
def rise : Zoom α → Zoom α → Except Failure α
  | level low, level high => .ok (high - low)
  | level low, whole high => (Number.ofInt? high).map (· - low)
  | whole low, level high => (Number.ofInt? low).map (high - ·)
  | whole low, whole high => Number.ofInt? (high - low)
  | _, _ => .error .wrongType

end Zoom

/-- The zoom that a follow sets; one that counts as no sets none, and yes counts as one. -/
def FollowZoom.set? : FollowZoom α → Option (Zoom α)
  | unset => none
  | level value => if value == 0 then none else some (.level value)
  | whole n => if n = 0 then none else some (.whole n)
  | other (.bool on) => if on then some (.whole 1) else none
  | other value => if value.truthy then some (.other value) else none

namespace Command

def start : Command α → α
  | follow start .. => start
  | zoom _ start .. => start
  | pan _ start _ => start
  | hold start _ => start

/-- The commands by their start, ties in order of declaration. -/
def sortByStart (commands : List (Command α)) : List (Command α) :=
  Order.sortOn start commands

end Command

end Screencast
