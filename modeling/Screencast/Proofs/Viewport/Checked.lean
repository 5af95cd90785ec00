import Screencast.Proofs.Viewport.Easing
import Screencast.Proofs.Viewport.Crop
import Screencast.Proofs.Viewport.Run
import Screencast.Viewport.Crop

/-!
The timeline and its crop with every operation that can fail: a quotient by nought, a square that
leaves the range of the numbers, a length without a count of frames. Of these only the last ever
happens, whatever the numbers of the commands and of the track are.
-/

namespace Screencast

open Number

section Definitions

variable {α : Type} [Number α]

def Number.quotient? (x y : α) : Option α :=
  if y == 0 then none else some (x / y)

namespace Track

def between? (time : α) (before after : Sample α) : Option (Point α) :=
  if time == before.time then some before.point
  else if time == after.time then some after.point
  else (quotient? (time - before.time) (after.time - before.time)).map fun ratio =>
    ⟨before.x + (after.x - before.x) * ratio, before.y + (after.y - before.y) * ratio⟩

def search? (time : α) : Track α → Option (Option (Point α))
  | before :: after :: rest =>
    if before.time ≤ time ∧ time ≤ after.time then (between? time before after).map some
    else search? time (after :: rest)
  | _ => some none

def positionAt? : Track α → α → Option (Point α)
  | [], _ => some ⟨0, 0⟩
  | first :: rest, time =>
    let last := rest.getLastD first
    if time ≤ first.time then some first.point
    else if last.time ≤ time then some last.point
    else (search? time (first :: rest)).map (·.getD last.point)

end Track

def Target.place? (track : Track α) (time : α) (fallback : Point α) : Target α → Option (Point α)
  | .point place => some place
  | .mouse => if track.isEmpty then some fallback else track.positionAt? time

def Frame.follow? (frame : Frame α) (start stop : α) (zoom : FollowZoom α) (track : Track α) :
    Option (Frame α) :=
  if within frame.time start stop then do
    let center ← Target.mouse.place? track (frame.time * 1000) frame.center
    pure { frame with center, zoom := zoom.set?.getD frame.zoom }
  else some frame

namespace Settled

def zoomStep? (settled : Settled α) (frame : Frame α) (level start duration : α)
    (center : Target α) (track : Track α) : Option (Frame α × Settled α) :=
  match Phase.of frame.time start duration with
  | .before => some (frame, settled)
  | .inside progress => do
    let center ← center.place? track (frame.time * 1000) frame.center
    let zoom ← (Ease.interpolate? settled.zoom level progress).toOption
    pure ({ frame with zoom := .level zoom, center }, settled)
  | .after => some ({ frame with zoom := .level level }, { settled with zoom := level })

def panStep? (settled : Settled α) (index : Nat) (frame : Frame α) (goal : Target α)
    (start duration : α) (track : Track α) : Option (Frame α × Settled α) :=
  match Phase.of frame.time start duration with
  | .before => some (frame, settled)
  | .inside progress => do
    let origin := settled.origin index frame
    let target ← goal.place? track (frame.time * 1000) frame.center
    let x ← (Ease.interpolate? origin.x target.x progress).toOption
    let y ← (Ease.interpolate? origin.y target.y progress).toOption
    pure ({ frame with center := ⟨x, y⟩ }, settled.noteOrigin index frame)
  | .after =>
    let noted := settled.noteOrigin index frame
    if settled.committed.contains index then some (frame, noted)
    else do
      let target ← goal.place? track (endOf start duration) (settled.origin index frame)
      pure (frame, { noted with center := target, committed := noted.committed ++ [index] })

end Settled

namespace Command

def applyOne? (index : Nat) (command : Command α) (track : Track α)
    (reached : Frame α × Settled α) : Option (Frame α × Settled α) :=
  let (frame, settled) := reached
  match command with
  | .follow start stop level => (frame.follow? start stop level track).map (·, settled)
  | .zoom level start duration center => settled.zoomStep? frame level start duration center track
  | .pan goal start duration => settled.panStep? index frame goal start duration track
  | .hold start stop => some (frame.hold start stop settled, settled)

def applyAll? (commands : List (Command α)) (track : Track α) (start : Frame α × Settled α) :
    Option (Frame α × Settled α) :=
  commands.zipIdx.foldlM (fun reached (command, index) => command.applyOne? index track reached)
    start

end Command

def Settled.next? (settled : Settled α) (commands : List (Command α)) (track : Track α)
    (time : α) : Option (Frame α × Settled α) := do
  let (frame, after) ← Command.applyAll? commands track (settled.frame time, settled)
  pure (frame, after.carry settled.center frame.center)

namespace Timeline

def run? (commands : List (Command α)) (track : Track α) (fps : Int) (initial : Settled α)
    (count : Nat) : Option (Array (Frame α) × Settled α) :=
  (List.range count).foldlM (fun (frames, settled) index => do
    let (frame, after) ← settled.next? commands track (moment fps index)
    pure (frames.push frame, after)) (#[], initial)

def build? (commands : List (Command α)) (track : Track α) (duration : α) (fps : Int)
    (resolution : Int × Int) : Option (List (Frame α)) := do
  let count ← (frameCount duration fps).toOption
  let initial := Settled.initial resolution.1 resolution.2
  let (frames, _) ← run? (Command.sortByStart commands) track fps initial count
  pure frames.toList

end Timeline

def Curve.piecewise? (valuePlaces slopePlaces : Int) : List (α × α) → Option (Curve α)
  | [] => some (.num 0 valuePlaces)
  | [(_, v)] => some (.num v valuePlaces)
  | (t, v) :: (t', v') :: rest => do
    let later ← piecewise? valuePlaces slopePlaces ((t', v') :: rest)
    if t' ≤ t then pure later
    else
      let slope ← quotient? (v' - v) (t' - t)
      pure (ifBefore t' (line v slope t valuePlaces slopePlaces) later)

namespace Timeline

def curve? (quantity : Frame α → α) (frames : List (Frame α)) : Option (Curve α) :=
  Curve.piecewise? 1 2 (frames.map fun frame => (frame.time, quantity frame))

def legs? : List (Frame α) → Option (List (Leg α))
  | frame :: next :: rest => do
    let later ← legs? (next :: rest)
    if next.time ≤ frame.time then pure later
    else
      let rise ← (frame.zoom.rise next.zoom).toOption
      let slope ← quotient? rise (next.time - frame.time)
      pure (⟨frame.time, frame.zoom, slope, next.time⟩ :: later)
  | _ => some []

def zoomCurve? (frames : List (Frame α)) : Option (Curve α) :=
  match frames.getLast? with
  | none => some (.num 0 1)
  | some last => do (along (← legs? frames) last.zoom).toOption

end Timeline

def Crop.ofTimeline? (frames : List (Frame α)) (width height interval : Int) :
    Option (Crop α) := do
  let keys := Timeline.keyframes interval frames
  let zoom := Curve.maximum (.num 1 0) (← Timeline.zoomCurve? keys)
  let w ← (constant width).toOption
  let h ← (constant height).toOption
  let cropWidth := Curve.div w zoom
  let cropHeight := Curve.div h zoom
  pure {
    width, height, zoom, cropWidth, cropHeight
    left := edge (← Timeline.curve? (·.center.x) keys) cropWidth w
    top := edge (← Timeline.curve? (·.center.y) keys) cropHeight h }

end Definitions

theorem Number.quotient?_of_lt {x y : Float} (less : x < y) (z : Float) :
    quotient? z (y - x) = some (z / (y - x)) :=
  if_neg (Bool.eq_false_iff.mp (Machine.sub_beq_zero_of_lt less))

namespace Track

variable {time : Float} {before after : Sample Float}

/-- A moment between two samples that is neither one's lies strictly between them. -/
theorem between?_eq (inside : before.time ≤ time ∧ time ≤ after.time) :
    between? time before after = some (between time before after) := by
  unfold between? between
  split
  · rfl
  · next notBefore =>
    split
    · rfl
    · obtain ⟨a, t, valueBefore, valueTime, begun⟩ := Machine.le_iff.mp inside.1
      have later : before.time < time := by
        refine Machine.lt_iff.mpr ⟨a, t, valueBefore, valueTime, lt_of_le_of_ne begun ?_⟩
        rintro rfl
        exact notBefore (Machine.beq_iff.mpr ⟨a, valueTime, valueBefore⟩)
      rw [quotient?_of_lt (lt_of_lt_of_le later inside.2)]
      rfl

section Safe

variable {α : Type} [Number α] {time : α}
  (safe : ∀ before after : Sample α, before.time ≤ time → time ≤ after.time →
    between? time before after = some (between time before after))

include safe

theorem search?_of_safe (track : Track α) : search? time track = some (inside? time track) := by
  fun_induction inside? time track with
  | case1 before after rest inside =>
    rw [search?, if_pos inside, safe before after inside.1 inside.2]
    rfl
  | case2 before after rest outside ih =>
    rw [search?, if_neg outside, ih]
  | case3 track short =>
    unfold search?
    split
    · exact absurd rfl (short _ _ _)
    · rfl

theorem positionAt?_of_safe (track : Track α) :
    track.positionAt? time = some (track.positionAt time) := by
  cases track with
  | nil => rfl
  | cons first rest =>
    simp only [positionAt?, positionAt, search?_of_safe safe, List.getLast_eq_getLastD]
    split
    · rfl
    · split <;> rfl

end Safe

theorem positionAt?_eq (track : Track Float) (time : Float) :
    track.positionAt? time = some (track.positionAt time) :=
  positionAt?_of_safe (fun _ _ lower upper => between?_eq ⟨lower, upper⟩) track

end Track

theorem Target.place?_eq (goal : Target Float) (track : Track Float) (time : Float)
    (fallback : Point Float) :
    goal.place? track time fallback = some (goal.place track time fallback) := by
  cases goal with
  | point place => rfl
  | mouse =>
    simp only [place?, place, track.positionAt?_eq]
    split <;> rfl

theorem Frame.follow?_eq (frame : Frame Float) (start stop : Float) (zoom : FollowZoom Float)
    (track : Track Float) :
    frame.follow? start stop zoom track = some (frame.follow start stop zoom track) := by
  unfold follow? follow
  split
  · rw [Target.place?_eq]
    rfl
  · rfl

theorem Ease.interpolate?_of_inside {time start duration progress : Float}
    (inside : Phase.of time start duration = .inside progress) (origin target : Float) :
    interpolate? origin target progress = .ok (interpolate origin target progress) := by
  rw [interpolate?, inOut?_of_inside inside]
  rfl

namespace Settled

variable (settled : Settled Float) (frame : Frame Float) (start duration : Float)
  (track : Track Float)

theorem zoomStep?_eq (level : Float) (center : Target Float) :
    settled.zoomStep? frame level start duration center track =
      some (settled.zoomStep frame level start duration center track) := by
  unfold zoomStep? zoomStep
  cases phase : Phase.of frame.time start duration with
  | before => rfl
  | inside progress =>
    simp only [Target.place?_eq, Ease.interpolate?_of_inside phase]
    rfl
  | after => rfl

theorem panStep?_eq (index : Nat) (goal : Target Float) :
    settled.panStep? index frame goal start duration track =
      some (settled.panStep index frame goal start duration track) := by
  unfold panStep? panStep
  cases phase : Phase.of frame.time start duration with
  | before => rfl
  | inside progress =>
    simp only [Target.place?_eq, Ease.interpolate?_of_inside phase]
    rfl
  | after =>
    simp only [Target.place?_eq]
    split <;> rfl

end Settled

namespace Command

variable (commands : List (Command Float)) (track : Track Float)

theorem applyOne?_eq (index : Nat) (command : Command Float)
    (reached : Frame Float × Settled Float) :
    command.applyOne? index track reached = some (command.apply index track reached) := by
  cases command with
  | follow start stop level =>
    rw [applyOne?, Frame.follow?_eq]
    rfl
  | zoom level start duration center => exact reached.2.zoomStep?_eq reached.1 start duration ..
  | pan goal start duration => exact reached.2.panStep?_eq reached.1 start duration ..
  | hold start stop => rfl

theorem applyAll?_eq (start : Frame Float × Settled Float) :
    applyAll? commands track start = some (applyAll commands track start) := by
  unfold applyAll?
  simp only [applyOne?_eq]
  exact List.foldlM_pure

end Command

theorem Settled.next?_eq (settled : Settled Float) (commands : List (Command Float))
    (track : Track Float) (time : Float) :
    settled.next? commands track time = some (settled.next commands track time) := by
  rw [next?, Command.applyAll?_eq]
  rfl

namespace Timeline

theorem run?_eq (commands : List (Command Float)) (track : Track Float) (fps : Int)
    (initial : Settled Float) (count : Nat) :
    run? commands track fps initial count = some (run commands track fps initial count) := by
  unfold run?
  simp only [Settled.next?_eq]
  exact List.foldlM_pure

/-- The timeline fails only where the length of the video has no count of frames. -/
theorem build?_eq (commands : List (Command Float)) (track : Track Float) (duration : Float)
    (fps : Int) (resolution : Int × Int) :
    build? commands track duration fps resolution =
      (build commands track duration fps resolution).toOption := by
  unfold build? build
  cases frameCount duration fps with
  | error failure => rfl
  | ok count =>
    simp only [run?_eq]
    rfl

end Timeline

theorem Curve.piecewise?_eq (valuePlaces slopePlaces : Int) {points : List (Float × Float)}
    (comparable : ∀ point ∈ points, point.1 ≤ point.1) :
    piecewise? valuePlaces slopePlaces points =
      some (piecewise valuePlaces slopePlaces points) := by
  fun_induction piecewise valuePlaces slopePlaces points with
  | case1 => rfl
  | case2 => rfl
  | case3 t v t' v' rest later notLater ih =>
    rw [piecewise?, ih fun point member => comparable point (List.mem_cons_of_mem _ member)]
    exact if_pos notLater
  | case4 t v t' v' rest later ahead ih =>
    have less : t < t' := lt_of_not_le (comparable (t', v') (by simp)) (comparable (t, v) (by simp))
      ahead
    rw [piecewise?, ih fun point member => comparable point (List.mem_cons_of_mem _ member)]
    simp only [Option.bind_eq_bind, Option.bind_some, if_neg ahead, quotient?_of_lt less]
    rfl

namespace Timeline

variable {frames : List (Frame Float)} (comparable : ∀ frame ∈ frames, frame.time ≤ frame.time)

include comparable

theorem curve?_eq (quantity : Frame Float → Float) :
    curve? quantity frames = some (curve quantity frames) := by
  refine Curve.piecewise?_eq 1 2 fun point member => ?_
  obtain ⟨frame, inFrames, rfl⟩ := List.mem_map.mp member
  exact comparable frame inFrames

omit comparable in
theorem legs?_eq {frames : List (Frame Float)}
    (comparable : ∀ frame ∈ frames, frame.time ≤ frame.time) :
    legs? frames = (legs frames).toOption := by
  fun_induction legs frames with
  | case1 frame next rest ih =>
    rw [legs?, ih fun shown member => comparable shown (List.mem_cons_of_mem _ member)]
    cases legs (next :: rest) with
    | error failure => rfl
    | ok later =>
      by_cases ahead : next.time ≤ frame.time
      · simp only [if_pos ahead]
        rfl
      · have less : frame.time < next.time :=
          lt_of_not_le (comparable next (by simp)) (comparable frame (by simp)) ahead
        simp only [if_neg ahead, quotient?_of_lt less]
        cases frame.zoom.rise next.zoom <;> rfl
  | case2 frames short =>
    unfold legs?
    split
    · exact absurd rfl (short _ _ _)
    · rfl

theorem zoomCurve?_eq : zoomCurve? frames = (zoomCurve frames).toOption := by
  unfold zoomCurve? zoomCurve
  rw [legs?_eq comparable]
  cases frames.getLast? with
  | none => rfl
  | some last => cases legs frames <;> rfl

theorem ofTimeline?_eq (width height interval : Int) :
    Crop.ofTimeline? frames width height interval =
      (Crop.ofTimeline frames width height interval).toOption := by
  have keyTimes : ∀ frame ∈ keyframes interval frames, frame.time ≤ frame.time :=
    fun frame member => comparable frame (Crop.mem_of_mem_keyframes member)
  simp only [Crop.ofTimeline?, Crop.ofTimeline, zoomCurve?_eq keyTimes, curve?_eq keyTimes]
  cases zoomCurve (keyframes interval frames) with
  | error failure => rfl
  | ok zoom =>
    cases Crop.constant (α := Float) width with
    | error failure => rfl
    | ok w => cases Crop.constant (α := Float) height <;> rfl

end Timeline

end Screencast
