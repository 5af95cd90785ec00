import Mathlib.Algebra.Order.Field.Basic
import Screencast.Proofs.Curve.Eval
import Screencast.Viewport.Crop

/-!
The crop rectangle lies in the picture at every time, between the key frames as well as before the
first and after the last, whatever the curves of zoom and centre do there: each edge is held back by
the picture's own edges.
-/

namespace Screencast

namespace Curve

mutual

def DividesSafely (time : Rat) : Curve Rat → Prop
  | .num .. => True
  | .var _ => True
  | .binary op left right =>
    left.DividesSafely time ∧ right.DividesSafely time ∧
      (op = .div → ∀ divisor, right.eval time = .ok divisor → divisor ≠ 0)
  | .call _ args => allDivideSafely time args

def allDivideSafely (time : Rat) : List (Curve Rat) → Prop
  | [] => True
  | arg :: rest => arg.DividesSafely time ∧ allDivideSafely time rest

end

variable {time : Rat} {x y z : Curve Rat}

theorem dividesSafely_sub (left : x.DividesSafely time) (right : y.DividesSafely time) :
    (sub x y).DividesSafely time := by
  refine ⟨left, right, ?_⟩
  intro isDivision
  cases isDivision

theorem dividesSafely_div {divisor : Rat} (left : x.DividesSafely time)
    (right : y.DividesSafely time) (value : y.eval time = .ok divisor) (nonzero : divisor ≠ 0) :
    (div x y).DividesSafely time := by
  refine ⟨left, right, ?_⟩
  intro _ other evaluated
  rw [value] at evaluated
  cases evaluated
  exact nonzero

theorem dividesSafely_maximum (left : x.DividesSafely time) (right : y.DividesSafely time) :
    (maximum x y).DividesSafely time :=
  ⟨left, right, trivial⟩

theorem dividesSafely_clamp (value : x.DividesSafely time) (low : y.DividesSafely time)
    (high : z.DividesSafely time) : (clamp x y z).DividesSafely time :=
  ⟨low, ⟨high, value, trivial⟩, trivial⟩

theorem dividesSafely_piecewise (valuePlaces slopePlaces : Int) (points : List (Rat × Rat))
    (time : Rat) : (piecewise valuePlaces slopePlaces points).DividesSafely time := by
  induction points with
  | nil => trivial
  | cons point later ih =>
    cases later with
    | nil => trivial
    | cons next rest =>
      simp only [piecewise]
      split
      · exact ih
      · refine ⟨⟨trivial, trivial, trivial⟩, ?_, ih, trivial⟩
        simp [line, add, mul, sub, Curve.time, DividesSafely]

end Curve

theorem Number.ofInt?_rat (n : Int) : (ofInt? n : Except Failure Rat) = .ok n := by
  unfold ofInt?
  exact if_pos rfl

def Zoom.value : Zoom Rat → Rat
  | .level value => value
  | .whole n => n
  | .other _ => 0

theorem Zoom.not_number_other {α : Type} [Number α] (value : Json) :
    ¬ ∃ level : α, (other value).toNumber = .ok level := by
  rintro ⟨level, made⟩
  cases value <;> cases made

theorem Zoom.toNumber_eq {zoom : Zoom Rat} (number : ∃ level, zoom.toNumber = .ok level) :
    zoom.toNumber = .ok zoom.value := by
  cases zoom with
  | level value => rfl
  | whole n => exact Number.ofInt?_rat n
  | other value => exact absurd number (not_number_other value)

/-- Counted exactly, it makes no difference whether a rise is counted between whole numbers. -/
theorem Zoom.rise_eq {low high : Zoom Rat} (lower : ∃ level, low.toNumber = .ok level)
    (upper : ∃ level, high.toNumber = .ok level) :
    low.rise high = .ok (high.value - low.value) := by
  cases low with
  | level a =>
    cases high with
    | level b => rfl
    | whole n => exact congrArg (Except.map (· - a)) (Number.ofInt?_rat n)
    | other value => exact absurd upper (not_number_other value)
  | whole m =>
    cases high with
    | level b => exact congrArg (Except.map (b - ·)) (Number.ofInt?_rat m)
    | whole n =>
      rw [rise, Number.ofInt?_rat, Int.cast_sub]
      rfl
    | other value => exact absurd upper (not_number_other value)
  | other value => exact absurd lower (not_number_other value)

namespace Timeline

theorem exists_legs_along {frame : Frame Rat} {rest : List (Frame Rat)}
    (numbers : ∀ shown ∈ frame :: rest, ∃ level, shown.zoom.toNumber = .ok level) :
    ∃ told, legs (frame :: rest) = .ok told ∧
      along told (rest.getLastD frame).zoom =
        .ok (curve (·.zoom.value) (frame :: rest)) := by
  induction rest generalizing frame with
  | nil =>
    refine ⟨[], rfl, ?_⟩
    rw [along, List.getLastD_nil, Zoom.toNumber_eq (numbers frame (by simp))]
    rfl
  | cons next rest ih =>
    have first := numbers frame (by simp)
    obtain ⟨told, walked, drawn⟩ := ih fun shown member =>
      numbers shown (List.mem_cons_of_mem _ member)
    rw [List.getLastD_cons]
    unfold curve at drawn ⊢
    simp only [List.map_cons, Curve.piecewise]
    rw [legs, walked, Zoom.rise_eq first (numbers next (by simp))]
    by_cases late : next.time ≤ frame.time
    · rw [if_pos late]
      exact ⟨told, if_pos late, drawn⟩
    · rw [if_neg late]
      refine ⟨_, if_neg late, ?_⟩
      rw [along, drawn, Zoom.toNumber_eq first]
      rfl

/-- Where every zoom is a number, the zoom is a curve through these, as the centre is. -/
theorem zoomCurve_eq {frames : List (Frame Rat)}
    (numbers : ∀ frame ∈ frames, ∃ level, frame.zoom.toNumber = .ok level) :
    zoomCurve frames = .ok (curve (·.zoom.value) frames) := by
  cases frames with
  | nil => rfl
  | cons frame rest =>
    obtain ⟨told, walked, drawn⟩ := exists_legs_along numbers
    rw [zoomCurve, List.getLast?_cons, walked, ← List.getLastD_eq_getLast?]
    exact drawn

end Timeline

namespace Crop

/-- How the crop stands along one side of the picture: inside it, and around its centre as far as
the picture reaches. -/
structure Kept (side center near length : Rat) : Prop where
  positive : 0 < length
  fits : length ≤ side
  near_nonneg : 0 ≤ near
  far_le : near + length ≤ side
  centred : length / 2 ≤ center → center ≤ side - length / 2 → near + length / 2 = center
  atNear : center < length / 2 → near = 0
  atFar : side - length / 2 < center → near + length = side

theorem kept_of_clamp {side center length : Rat} (positive : 0 < length) (fits : length ≤ side) :
    Kept side center (max 0 (min (side - length) (center - length / 2))) length := by
  refine ⟨positive, fits, le_max_left _ _, ?_, ?_, ?_, ?_⟩
  · have edge : max 0 (min (side - length) (center - length / 2)) ≤ side - length :=
      max_le (by linarith) (min_le_left _ _)
    linarith
  · intro notBefore notBehind
    rw [min_eq_right (by linarith), max_eq_right (by linarith)]
    linarith
  · intro before
    exact max_eq_left ((min_le_right _ _).trans (by linarith))
  · intro behind
    rw [min_eq_left (by linarith), max_eq_right (by linarith)]
    linarith

variable {time : Rat}

theorem edge_kept {side : Int} (positive : 1 ≤ side) {zoomCurve centerCurve : Curve Rat}
    {zoom center : Rat} (zoomed : zoomCurve.eval time = .ok zoom) (atLeast : 1 ≤ zoom)
    (centered : centerCurve.eval time = .ok center) (zoomSafe : zoomCurve.DividesSafely time)
    (centerSafe : centerCurve.DividesSafely time) :
    let crop := Curve.div (.num (side : Rat) 0) zoomCurve
    let near := edge centerCurve crop (.num (side : Rat) 0)
    ∃ x, crop.eval time = .ok (side / zoom) ∧ near.eval time = .ok x ∧
      Kept side center x (side / zoom) ∧ crop.DividesSafely time ∧ near.DividesSafely time := by
  intro crop near
  have zoom_pos : 0 < zoom := by linarith
  have side_pos : (1 : Rat) ≤ side := by exact_mod_cast positive
  have width : crop.eval time = .ok (side / zoom) :=
    Curve.eval_div (Curve.eval_whole side) zoomed (ne_of_gt zoom_pos)
  have two : (Curve.num (2 : Rat) 0).eval time = .ok 2 := Curve.eval_whole 2
  have half : (Curve.div crop (.num 2 0)).eval time = .ok (side / zoom / 2) :=
    Curve.eval_div width two (by norm_num)
  have place : near.eval time =
      .ok (max 0 (min (side - side / zoom) (center - side / zoom / 2))) :=
    Curve.eval_clamp (Curve.eval_sub centered half) (Curve.eval_whole 0)
      (Curve.eval_sub (Curve.eval_whole side) width)
  have cropSafe : crop.DividesSafely time :=
    Curve.dividesSafely_div trivial zoomSafe zoomed (ne_of_gt zoom_pos)
  have halfSafe : (Curve.div crop (.num 2 0)).DividesSafely time :=
    Curve.dividesSafely_div cropSafe trivial two (by norm_num)
  refine ⟨_, width, place, kept_of_clamp ?_ ?_, cropSafe, ?_⟩
  · exact div_pos (by linarith) zoom_pos
  · exact div_le_self (by linarith) atLeast
  · exact Curve.dividesSafely_clamp (Curve.dividesSafely_sub centerSafe halfSafe) trivial
      (Curve.dividesSafely_sub trivial cropSafe)

theorem mem_of_mem_keyframes {β : Type} {interval : Int} {frames : List β} {frame : β}
    (member : frame ∈ Timeline.keyframes interval frames) : frame ∈ frames := by
  unfold Timeline.keyframes at member
  obtain ⟨⟨kept, index⟩, filtered, rfl⟩ := List.mem_map.mp member
  exact List.fst_mem_of_mem_zipIdx (List.mem_filter.mp filtered).1

section Making

variable {α : Type} [Number α] {frames : List (Frame α)} {width height interval : Int}

theorem ofTimeline_of_isFinite {level : Curve α}
    (zoomed : Timeline.zoomCurve (Timeline.keyframes interval frames) = .ok level)
    (wide : Number.isFinite (Number.ofInt width : α) = true)
    (high : Number.isFinite (Number.ofInt height : α) = true) :
    let keys := Timeline.keyframes interval frames
    let zoom := Curve.maximum (.num 1 0) level
    let w : Curve α := .num (Number.ofInt width) 0
    let h : Curve α := .num (Number.ofInt height) 0
    ofTimeline frames width height interval = .ok {
      width, height, zoom
      cropWidth := .div w zoom
      cropHeight := .div h zoom
      left := edge (Timeline.curve (·.center.x) keys) (.div w zoom) w
      top := edge (Timeline.curve (·.center.y) keys) (.div h zoom) h } := by
  intro keys zoom w h
  have wideConstant : constant width = .ok w := if_pos wide
  have highConstant : constant height = .ok h := if_pos high
  simp only [ofTimeline, zoomed, wideConstant, highConstant]
  rfl

end Making

theorem exists_eval_curve (quantity : Frame Rat → Rat) (frames : List (Frame Rat)) (time : Rat) :
    ∃ value, (Timeline.curve quantity frames).eval time = .ok value :=
  Curve.exists_eval_piecewise (by decide) (by decide) _ time

theorem ofTimeline_of_zoomCurve {frames : List (Frame Rat)} {width height interval : Int}
    {level : Curve Rat}
    (zoomed : Timeline.zoomCurve (Timeline.keyframes interval frames) = .ok level) :
    let keys := Timeline.keyframes interval frames
    let zoom := Curve.maximum (.num 1 0) level
    ofTimeline frames width height interval = .ok {
      width, height, zoom
      cropWidth := .div (.num width 0) zoom
      cropHeight := .div (.num height 0) zoom
      left := edge (Timeline.curve (·.center.x) keys) (.div (.num width 0) zoom) (.num width 0)
      top := edge (Timeline.curve (·.center.y) keys) (.div (.num height 0) zoom)
        (.num height 0) } :=
  ofTimeline_of_isFinite zoomed rfl rfl

theorem rectangleAt_of_eval {crop : Crop Rat} {x y width height : Rat}
    (left : crop.left.eval time = .ok x) (top : crop.top.eval time = .ok y)
    (wide : crop.cropWidth.eval time = .ok width) (high : crop.cropHeight.eval time = .ok height) :
    crop.rectangleAt time = .ok ⟨x, y, width, height⟩ := by
  unfold rectangleAt
  rw [left, top, wide, high]
  rfl

/-- At every time the crop of a timeline magnifies at least once, has the picture's shape and lies
in the picture, around the centre's curve as far as the picture reaches. -/
theorem rectangleAt_in_picture (frames : List (Frame Rat))
    (numbers : ∀ frame ∈ frames, ∃ level, frame.zoom.toNumber = .ok level) (interval : Int)
    {width height : Int} (wide : 1 ≤ width) (high : 1 ≤ height) :
    ∃ crop, ofTimeline frames width height interval = .ok crop ∧ ∀ time,
      ∃ zoom x y, ∃ centerX centerY : Rat,
        crop.zoom.eval time = .ok zoom ∧ 1 ≤ zoom ∧
        (∀ curve ∈ [crop.zoom, crop.cropWidth, crop.cropHeight, crop.left, crop.top],
          curve.DividesSafely time) ∧
        (Timeline.curve (·.center.x) (Timeline.keyframes interval frames)).eval time =
          .ok centerX ∧
        (Timeline.curve (·.center.y) (Timeline.keyframes interval frames)).eval time =
          .ok centerY ∧
        crop.rectangleAt time = .ok ⟨x, y, width / zoom, height / zoom⟩ ∧
        Kept width centerX x (width / zoom) ∧ Kept height centerY y (height / zoom) := by
  have zoomed : Timeline.zoomCurve (Timeline.keyframes interval frames) = _ :=
    Timeline.zoomCurve_eq fun frame member => numbers frame (mem_of_mem_keyframes member)
  refine ⟨_, ofTimeline_of_zoomCurve zoomed, ?_⟩
  intro time
  obtain ⟨level, zoomValue⟩ :=
    exists_eval_curve (·.zoom.value) (Timeline.keyframes interval frames) time
  have zoomMax := Curve.eval_maximum (Curve.eval_whole 1) zoomValue
  have atLeast : (1 : Rat) ≤ max ((1 : Int) : Rat) level := by
    exact_mod_cast le_max_left (1 : Rat) level
  have levelSafe : (Timeline.curve (·.zoom.value)
      (Timeline.keyframes interval frames)).DividesSafely time := Curve.dividesSafely_piecewise ..
  have zoomSafe := Curve.dividesSafely_maximum (x := .num (1 : Rat) 0) trivial levelSafe
  obtain ⟨centerX, xValue⟩ :=
    exists_eval_curve (·.center.x) (Timeline.keyframes interval frames) time
  obtain ⟨centerY, yValue⟩ :=
    exists_eval_curve (·.center.y) (Timeline.keyframes interval frames) time
  obtain ⟨x, widthValue, leftValue, xKept, widthSafe, leftSafe⟩ := edge_kept wide zoomMax atLeast
    xValue zoomSafe (Curve.dividesSafely_piecewise ..)
  obtain ⟨y, heightValue, topValue, yKept, heightSafe, topSafe⟩ := edge_kept high zoomMax atLeast
    yValue zoomSafe (Curve.dividesSafely_piecewise ..)
  refine ⟨_, x, y, centerX, centerY, zoomMax, atLeast, ?_, xValue, yValue,
    rectangleAt_of_eval leftValue topValue widthValue heightValue, xKept, yKept⟩
  intro curve member
  simp only [List.mem_cons, List.not_mem_nil, or_false] at member
  rcases member with rfl | rfl | rfl | rfl | rfl
  · exact zoomSafe
  · exact widthSafe
  · exact heightSafe
  · exact leftSafe
  · exact topSafe

/-- A zoom below one and a centre far outside the picture. -/
theorem rectangleAt_in_picture_outside :
    let frames : List (Frame Rat) := [⟨0, .level (1 / 2), ⟨-5, 9000⟩⟩, ⟨1, .whole 3, ⟨20, 40⟩⟩]
    ∃ crop, ofTimeline frames 1920 1080 1 = .ok crop ∧ ∀ time, ∃ zoom x y : Rat,
      crop.zoom.eval time = .ok zoom ∧ 1 ≤ zoom ∧
        crop.rectangleAt time = .ok ⟨x, y, 1920 / zoom, 1080 / zoom⟩ ∧
        0 ≤ x ∧ x + 1920 / zoom ≤ 1920 ∧ 0 ≤ y ∧ y + 1080 / zoom ≤ 1080 := by
  intro frames
  have numbers : ∀ frame ∈ frames, ∃ level, frame.zoom.toNumber = .ok level := by
    intro frame member
    simp only [frames, List.mem_cons, List.not_mem_nil, or_false] at member
    rcases member with rfl | rfl
    · exact ⟨1 / 2, rfl⟩
    · exact ⟨3, rfl⟩
  obtain ⟨crop, made, rectangles⟩ := rectangleAt_in_picture frames numbers 1
    (by decide : (1 : Int) ≤ 1920) (by decide : (1 : Int) ≤ 1080)
  refine ⟨crop, made, fun time => ?_⟩
  obtain ⟨zoom, x, y, _, _, zoomed, atLeast, _, _, _, rectangle, xKept, yKept⟩ := rectangles time
  exact ⟨zoom, x, y, zoomed, atLeast, rectangle, xKept.near_nonneg, xKept.far_le,
    yKept.near_nonneg, yKept.far_le⟩

end Crop

end Screencast
