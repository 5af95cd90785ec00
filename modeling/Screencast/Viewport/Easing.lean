import Screencast.Number.Basic

/-!
Transitions. A window of time is not yet open, open with some progress, or past; `interpolate` goes
from one value to another as the progress grows, slowly at both ends.
-/

namespace Screencast

inductive Phase (α : Type) where
  | before
  | inside (progress : α)
  | after
deriving Repr, DecidableEq

variable {α : Type} [Number α]

/-- Where `time` lies to the window that opens at `start`. A window without length, or of a
negative one, is a single moment. -/
def Phase.of (time start duration : α) : Phase α :=
  let length := Number.larger 0 duration
  if time < start then .before
  else if time ≤ start + length then
    .inside (if 0 < length then (time - start) / length else 1)
  else .after

namespace Ease

def rest (t : α) : α := Number.ofInt (-2) * t + 2

def inOut (t : α) : α :=
  if t < Number.half then 2 * t * t else 1 - rest t * rest t / 2

/-- `inOut`, unless its square leaves the range of the numbers. -/
def inOut? (t : α) : Except Failure α :=
  if t < Number.half then .ok (inOut t)
  else if Number.isFinite (rest t) && Number.isInfinite (rest t * rest t) then
    .error .powerOutOfRange
  else .ok (inOut t)

def interpolate (origin target progress : α) : α :=
  origin + (target - origin) * inOut progress

def interpolate? (origin target progress : α) : Except Failure α :=
  (inOut? progress).map fun part => origin + (target - origin) * part

end Ease

end Screencast
