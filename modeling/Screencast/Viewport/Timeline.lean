import Screencast.Viewport.Fold

/-!
The timeline: one frame after another over the length of a video. Each frame starts from what the
frames before it settled.
-/

namespace Screencast

variable {α : Type} [Number α]

namespace Settled

def initial (width height : Int) : Settled α :=
  { zoom := 1, center := ⟨Number.ofInt width / 2, Number.ofInt height / 2⟩ }

def frame (settled : Settled α) (time : α) : Frame α :=
  ⟨time, .level settled.zoom, settled.center⟩

/-- The centre is carried on if a command moved it. -/
def carry (settled : Settled α) (start reached : Point α) : Settled α :=
  if Number.same reached.x start.x && Number.same reached.y start.y then settled
  else { settled with center := reached }

def next (settled : Settled α) (commands : List (Command α)) (track : Track α) (time : α) :
    Frame α × Settled α :=
  let (frame, after) := Command.applyAll commands track (settled.frame time, settled)
  (frame, after.carry settled.center frame.center)

end Settled

namespace Timeline

/-- The moment of a frame, in seconds. -/
def moment (fps : Int) (index : Nat) : α :=
  Number.ofInt index / Number.ofInt fps

def run (commands : List (Command α)) (track : Track α) (fps : Int) (initial : Settled α)
    (count : Nat) : Array (Frame α) × Settled α :=
  (List.range count).foldl (fun (frames, settled) index =>
    let (frame, after) := settled.next commands track (moment fps index)
    (frames.push frame, after)) (#[], initial)

def frameCount (duration : α) (fps : Int) : Except Failure Nat :=
  (Number.exact (duration * Number.ofInt fps)).ceil.map Int.toNat

def build (commands : List (Command α)) (track : Track α) (duration : α) (fps : Int)
    (resolution : Int × Int) : Except Failure (List (Frame α)) :=
  (frameCount duration fps).map fun count =>
    let initial := Settled.initial resolution.1 resolution.2
    (run (Command.sortByStart commands) track fps initial count).1.toList

/-- The middle of a side; a side whose half lies beyond the numbers has none. -/
def middle (side : Int) : Except Failure α :=
  let half : α := Number.ofDecimal ⟨side < 0, 5 * side.natAbs, 1⟩
  if Number.isFinite half then .ok half else .error .quotientTooLarge

/-- The frames of a video of some seconds. The rate must lie in the range of the numbers, and the
picture must have a middle. -/
def ofVideo (commands : List (Command α)) (track : Track α) (seconds : α) (fps : Int)
    (size : Int × Int) : Except Failure (List (Frame α)) := do
  if !Number.isFinite (Number.ofInt fps : α) then throw .integerTooLarge
  let frames ← build commands track seconds fps size
  discard (middle size.1 : Except Failure α)
  discard (middle size.2 : Except Failure α)
  return frames

end Timeline

end Screencast
