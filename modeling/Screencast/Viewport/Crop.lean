import Screencast.Curve.Piecewise
import Screencast.Viewport.Fold

/-!
The crop of a timeline. Every so many frames one is a key frame; curves through the key frames give
the zoom and the centre at any time, and from them the rectangle that is cut out of the picture.
-/

namespace Screencast

variable {α : Type} [Number α]

namespace Timeline

def keyframes {β : Type} (interval : Int) (frames : List β) : List β :=
  let step := (max 1 interval).toNat
  let count := frames.length
  (frames.zipIdx.filter fun (_, index) => index % step == 0 || index + 1 == count).map (·.1)

def curve (quantity : Frame α → α) (frames : List (Frame α)) : Curve α :=
  .piecewise 1 2 (frames.map fun frame => (frame.time, quantity frame))

structure Leg (α : Type) where
  time : α
  zoom : Zoom α
  slope : α
  stop : α

/-- The legs between key frames, told from the last to the first; a frame that is no later than the
one before it ends none. -/
def legs : List (Frame α) → Except Failure (List (Leg α))
  | frame :: next :: rest => do
    let later ← legs (next :: rest)
    if next.time ≤ frame.time then pure later
    else
      let rise ← frame.zoom.rise next.zoom
      pure (⟨frame.time, frame.zoom, rise / (next.time - frame.time), next.time⟩ :: later)
  | _ => .ok []

/-- The curve along some legs that stays at a zoom behind them. -/
def along : List (Leg α) → Zoom α → Except Failure (Curve α)
  | [], last => last.toNumber.map (.num · 1)
  | leg :: rest, last => do
    let level ← leg.zoom.toNumber
    let later ← along rest last
    pure (.ifBefore leg.stop (.line level leg.slope leg.time 1 2) later)

/-- The curve of the zoom. The rises are told first, from the last one on; after that every zoom
must be a number. -/
def zoomCurve (frames : List (Frame α)) : Except Failure (Curve α) :=
  match frames.getLast? with
  | none => .ok (.num 0 1)
  | some last => do along (← legs frames) last.zoom

end Timeline

structure Crop (α : Type) where
  width : Int
  height : Int
  zoom : Curve α
  cropWidth : Curve α
  cropHeight : Curve α
  left : Curve α
  top : Curve α

namespace Crop

def constant (n : Int) : Except Failure (Curve α) :=
  let value : α := Number.ofInt n
  if Number.isFinite value then .ok (.num value 0) else .error .integerTooLarge

/-- The near edge along one side of the picture: half the crop before the centre, kept inside. -/
def edge (center crop side : Curve α) : Curve α :=
  .clamp (.sub center (.div crop (.num 2 0))) (.num 0 0) (.sub side crop)

/-- The crop of a timeline. A zoom below one would reach beyond the picture and counts as one. -/
def ofTimeline (frames : List (Frame α)) (width height interval : Int) :
    Except Failure (Crop α) := do
  let keys := Timeline.keyframes interval frames
  let zoom := Curve.maximum (.num 1 0) (← Timeline.zoomCurve keys)
  let w ← constant width
  let h ← constant height
  let cropWidth := Curve.div w zoom
  let cropHeight := Curve.div h zoom
  pure {
    width, height, zoom, cropWidth, cropHeight
    left := edge (Timeline.curve (·.center.x) keys) cropWidth w
    top := edge (Timeline.curve (·.center.y) keys) cropHeight h }

def toFilter (crop : Crop α) : Except Failure String := do
  let w ← crop.cropWidth.render escapedComma
  let h ← crop.cropHeight.render escapedComma
  let x ← crop.left.render escapedComma
  let y ← crop.top.render escapedComma
  pure ("crop=w='" ++ w ++ "':h='" ++ h ++ "':x='" ++ x ++ "':y='" ++ y ++ "',scale=" ++
    toString crop.width ++ ":" ++ toString crop.height)

structure Rectangle (α : Type) where
  x : α
  y : α
  width : α
  height : α
deriving Repr, DecidableEq

def rectangleAt (crop : Crop α) (time : α) : Except Failure (Rectangle α) := do
  let x ← crop.left.eval time
  let y ← crop.top.eval time
  let w ← crop.cropWidth.eval time
  let h ← crop.cropHeight.eval time
  pure ⟨x, y, w, h⟩

end Crop

end Screencast
