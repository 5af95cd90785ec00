import Screencast.Proofs.Steps
import Screencast.Proofs.Text.Unmarked
import Screencast.Proofs.Viewport.Checked
import Screencast.Proofs.Viewport.Past
import Screencast.Viewport.Config

/-!
From the viewport section of a scene to the text of the filter. A scene that is read makes a
timeline and a crop without fail, unless a follow declares a zoom that is no number, or two follows
declare whole ones further apart than numbers reach: a zoom is taken as it stands, and the curve
through the key frames cannot be drawn.
-/

namespace Screencast

open Number

section Zooms

variable {α : Type} [Number α]

/-- Whether a curve can be drawn through zooms, in any order. -/
structure Zoom.Drawable (zooms : List (Zoom α)) : Prop where
  number : ∀ zoom ∈ zooms, ∃ level, zoom.toNumber = .ok level
  rise : ∀ low ∈ zooms, ∀ high ∈ zooms, ∃ rise, low.rise high = .ok rise

namespace Command

def followZoom? : Command α → Option (Zoom α)
  | follow _ _ declared => declared.set?
  | _ => none

def followZooms (commands : List (Command α)) : List (Zoom α) :=
  commands.filterMap followZoom?

end Command

def Zoom.IsFrom (commands : List (Command α)) (zoom : Zoom α) : Prop :=
  (∃ level, zoom = .level level) ∨ zoom ∈ Command.followZooms commands

namespace Command

variable {commands : List (Command α)}

theorem isFrom_apply {command : Command α} (member : command ∈ commands) (index : Nat)
    (track : Track α) {reached : Frame α × Settled α} (shown : reached.1.zoom.IsFrom commands) :
    (command.apply index track reached).1.zoom.IsFrom commands := by
  obtain ⟨frame, settled⟩ := reached
  cases command with
  | follow start stop zoom =>
    change (frame.follow start stop zoom track).zoom.IsFrom commands
    unfold Frame.follow
    split
    · cases set : zoom.set? with
      | none => exact shown
      | some written => exact .inr (List.mem_filterMap.mpr ⟨_, member, set⟩)
    · exact shown
  | zoom level start duration center =>
    change (settled.zoomStep frame level start duration center track).1.zoom.IsFrom commands
    unfold Settled.zoomStep
    split
    · exact shown
    · exact .inl ⟨_, rfl⟩
    · exact .inl ⟨_, rfl⟩
  | pan goal start duration =>
    change (settled.panStep index frame goal start duration track).1.zoom.IsFrom commands
    rw [(panStep_zoom settled index frame goal start duration track).1]
    exact shown
  | hold start stop =>
    change (frame.hold start stop settled).zoom.IsFrom commands
    unfold Frame.hold
    split
    · exact .inl ⟨_, rfl⟩
    · exact shown

theorem isFrom_applyAll {order : List (Command α)} (among : order ⊆ commands) (track : Track α)
    {start : Frame α × Settled α} (shown : start.1.zoom.IsFrom commands) :
    (applyAll order track start).1.zoom.IsFrom commands := by
  induction order using List.reverseRecOn with
  | nil => exact shown
  | append_singleton order command ih =>
    rw [applyAll_concat]
    exact isFrom_apply (among (by simp)) _ _
      (ih fun other member => among (List.mem_append_left _ member))

end Command

namespace Zoom

theorem exists_rise_from_level (value : α) {zoom : Zoom α}
    (number : ∃ level, zoom.toNumber = .ok level) : ∃ rise, (level value).rise zoom = .ok rise := by
  cases zoom with
  | level => exact ⟨_, rfl⟩
  | whole n =>
    obtain ⟨reached, made⟩ := number
    exact ⟨_, congrArg (Except.map (· - value)) made⟩
  | other declared => exact absurd number (not_number_other declared)

theorem exists_rise_to_level (value : α) {zoom : Zoom α}
    (number : ∃ level, zoom.toNumber = .ok level) : ∃ rise, zoom.rise (level value) = .ok rise := by
  cases zoom with
  | level => exact ⟨_, rfl⟩
  | whole n =>
    obtain ⟨reached, made⟩ := number
    exact ⟨_, congrArg (Except.map (value - ·)) made⟩
  | other declared => exact absurd number (not_number_other declared)

theorem Drawable.of_isFrom {commands : List (Command α)}
    (drawable : Drawable (Command.followZooms commands)) {zooms : List (Zoom α)}
    (shown : ∀ zoom ∈ zooms, zoom.IsFrom commands) : Drawable zooms := by
  have number : ∀ zoom ∈ zooms, ∃ level, zoom.toNumber = .ok level := by
    intro zoom member
    obtain ⟨value, rfl⟩ | declared := shown zoom member
    · exact ⟨value, rfl⟩
    · exact drawable.number zoom declared
  refine ⟨number, ?_⟩
  intro low isLow high isHigh
  obtain ⟨value, rfl⟩ | lower := shown low isLow
  · exact exists_rise_from_level value (number high isHigh)
  · obtain ⟨value, rfl⟩ | upper := shown high isHigh
    · exact exists_rise_to_level value (number low isLow)
    · exact drawable.rise low lower high upper

theorem Drawable.subset {zooms : List (Zoom α)} (drawable : Drawable zooms)
    {others : List (Zoom α)} (among : others ⊆ zooms) : Drawable others where
  number zoom member := drawable.number zoom (among member)
  rise low isLow high isHigh := drawable.rise low (among isLow) high (among isHigh)

end Zoom

namespace Timeline

/-- A timeline shows no zooms but levels and those of its follows. -/
theorem isFrom_of_build {commands : List (Command α)} {track : Track α} {duration : α} {fps : Int}
    {resolution : Int × Int} {frames : List (Frame α)}
    (built : build commands track duration fps resolution = .ok frames) :
    ∀ zoom ∈ frames.map (·.zoom), zoom.IsFrom commands := by
  obtain ⟨count, _, rfl⟩ := build_eq_ok_iff.mp built
  intro zoom member
  obtain ⟨frame, inFrames, rfl⟩ := List.mem_map.mp member
  obtain ⟨index, _, rfl⟩ := List.mem_map.mp inFrames
  exact Command.isFrom_applyAll (Order.sortOn_perm Command.start commands).subset track
    (.inl ⟨_, rfl⟩)

theorem exists_legs {frames : List (Frame α)} (drawable : Zoom.Drawable (frames.map (·.zoom))) :
    ∃ told, legs frames = .ok told ∧ ∀ leg ∈ told, leg.zoom ∈ frames.map (·.zoom) := by
  fun_induction legs frames with
  | case1 frame next rest ih =>
    obtain ⟨told, walked, zooms⟩ := ih (drawable.subset (List.subset_cons_self _ _))
    have later : ∀ leg ∈ told, leg.zoom ∈ (frame :: next :: rest).map (·.zoom) :=
      fun leg member => List.mem_cons_of_mem _ (zooms leg member)
    obtain ⟨rise, risen⟩ := drawable.rise frame.zoom (by simp) next.zoom (by simp)
    rw [walked, risen]
    by_cases late : next.time ≤ frame.time
    -- A frame that is not later ends no leg, and its rise is not asked for.
    · exact ⟨told, if_pos late, later⟩
    · exact ⟨_, if_neg late, List.forall_mem_cons.mpr ⟨by simp, later⟩⟩
  | case2 => exact ⟨[], rfl, by simp⟩

theorem exists_along {told : List (Leg α)}
    (numbers : ∀ leg ∈ told, ∃ level, leg.zoom.toNumber = .ok level) {last : Zoom α}
    (stays : ∃ level, last.toNumber = .ok level) :
    ∃ curve, along told last = .ok curve ∧ curve.Writes := by
  induction told with
  | nil =>
    obtain ⟨level, made⟩ := stays
    exact ⟨_, congrArg (Except.map _) made, .num level (by decide)⟩
  | cons leg rest ih =>
    obtain ⟨level, made⟩ := numbers leg (by simp)
    obtain ⟨later, drawn, writes⟩ := ih fun other member =>
      numbers other (List.mem_cons_of_mem _ member)
    have places : (0 : Int) < 1 ∧ (0 : Int) < 2 := by decide
    have line := Curve.Writes.line level leg.slope leg.time places.1 places.2
    refine ⟨_, ?_, .ifBefore leg.stop line writes⟩
    rw [along, made, drawn]
    rfl

theorem exists_zoomCurve {frames : List (Frame α)}
    (drawable : Zoom.Drawable (frames.map (·.zoom))) :
    ∃ curve, zoomCurve frames = .ok curve ∧ curve.Writes := by
  unfold zoomCurve
  cases ends : frames.getLast? with
  | none => exact ⟨_, rfl, .num 0 (by decide)⟩
  | some last =>
    obtain ⟨told, walked, zooms⟩ := exists_legs drawable
    obtain ⟨curve, drawn, writes⟩ := exists_along
      (fun leg member => drawable.number leg.zoom (zooms leg member))
      (drawable.number last.zoom (List.mem_map_of_mem (List.mem_of_getLast? ends)))
    refine ⟨curve, ?_, writes⟩
    simp only [walked]
    exact drawn

variable [LawfulNumber α]

theorem time_le_time_of_build {commands : List (Command α)} {track : Track α} {duration : α}
    {fps : Int} (positive : 0 < fps) {resolution : Int × Int} {frames : List (Frame α)}
    (built : build commands track duration fps resolution = .ok frames) :
    ∀ frame ∈ frames, frame.time ≤ frame.time := by
  obtain ⟨count, counted, rfl⟩ := build_eq_ok_iff.mp built
  have inRange := LawfulNumber.isFinite_of_mul (isFinite_of_frameCount counted)
  intro frame member
  obtain ⟨index, _, rfl⟩ := List.mem_map.mp member
  rw [frameAt_time]
  exact moment_le positive inRange le_rfl

end Timeline

end Zooms

section Texts

variable {α : Type} [Number α]

namespace Crop

variable [LawfulNumber α]

theorem writes_ofInt {n : Int} (small : n.natAbs ≤ twoTo 53) :
    (Curve.num (Number.ofInt n : α) 0).Writes :=
  .whole (LawfulNumber.isFinite_ofInt small)

theorem writes_edge {center crop side : Curve α} (centered : center.Writes) (cropped : crop.Writes)
    (whole : side.Writes) : (edge center crop side).Writes :=
  .clamp (.sub centered (.div cropped (writes_ofInt (by decide)))) (writes_ofInt (by decide))
    (.sub whole cropped)

omit [LawfulNumber α] in
theorem exists_toFilter {width height : Int} {zoom cropWidth cropHeight left top : Curve α}
    (wide : cropWidth.Writes) (high : cropHeight.Writes) (x : left.Writes) (y : top.Writes) :
    ∃ text, toFilter ⟨width, height, zoom, cropWidth, cropHeight, left, top⟩ = .ok text := by
  obtain ⟨_, widthText, _⟩ := wide
  obtain ⟨_, heightText, _⟩ := high
  obtain ⟨_, leftText, _⟩ := x
  obtain ⟨_, topText, _⟩ := y
  unfold toFilter
  rw [widthText, heightText, leftText, topText]
  exact ⟨_, rfl⟩

theorem exists_filter {frames : List (Frame α)}
    (drawable : Zoom.Drawable (frames.map (·.zoom))) {width height : Int}
    (wide : isFinite (ofInt width : α) = true) (high : isFinite (ofInt height : α) = true)
    (interval : Int) :
    ∃ crop text, ofTimeline frames width height interval = .ok crop ∧ crop.toFilter = .ok text := by
  have keys : (Timeline.keyframes interval frames).map (·.zoom) ⊆ frames.map (·.zoom) :=
    List.map_subset _ fun frame member => mem_of_mem_keyframes member
  obtain ⟨level, zoomed, levelWrites⟩ := Timeline.exists_zoomCurve (drawable.subset keys)
  have zoom : (Curve.maximum (.num (1 : α) 0) level).Writes :=
    .maximum (writes_ofInt (by decide)) levelWrites
  have line (quantity : Frame α → α) :
      (Timeline.curve quantity (Timeline.keyframes interval frames)).Writes :=
    .piecewise (by decide) (by decide) _
  have cropWidth := Curve.Writes.div (.whole wide) zoom
  have cropHeight := Curve.Writes.div (.whole high) zoom
  have left := writes_edge (line (·.center.x)) cropWidth (.whole wide)
  have top := writes_edge (line (·.center.y)) cropHeight (.whole high)
  obtain ⟨text, made⟩ := exists_toFilter cropWidth cropHeight left top
  exact ⟨_, text, ofTimeline_of_isFinite zoomed wide high, made⟩

omit [LawfulNumber α] in
/-- Between two frames whose zooms have no difference no curve can be drawn. -/
theorem ofTimeline_of_rise_eq_error {first last : Frame α} (later : ¬ last.time ≤ first.time)
    {cause : Failure} (fails : first.zoom.rise last.zoom = .error cause)
    (width height interval : Int) :
    ofTimeline [first, last] width height interval = .error cause := by
  have keys : Timeline.keyframes interval [first, last] = [first, last] := by
    simp [Timeline.keyframes]
  have untold : Timeline.legs [first, last] = .error cause := by
    simp only [Timeline.legs, if_neg later, fails]
    rfl
  have undrawn : Timeline.zoomCurve [first, last] = .error cause := by
    rw [Timeline.zoomCurve, untold]
    rfl
  simp only [ofTimeline, keys, undrawn]
  rfl

end Crop

end Texts

namespace Json

/-- Whether a value counts as no zoom or is a number in range. -/
def isLevel : Json → Bool
  | .bool _ | .float _ => true
  | .int n => (Binary.ofInteger n).isOk
  | value => !value.truthy

def whole? : Json → Option Int
  | .int n => some n
  | .bool true => some 1
  | _ => none

end Json

namespace Command

def declaredZoom? (item : Json) : Option Json := do
  guard (isMouse (← (item.memberOrNull "follow").toOption))
  (item.memberOrNull "zoom").toOption

def declaredZooms (scene : Json) : List Json :=
  ((scene.memberOrNull "viewport" >>= Json.elements).toOption.getD []).filterMap declaredZoom?

/-- Whether the follows of a scene declare no zooms or numbers for them, of which no two whole ones
are further apart than numbers reach. -/
def zoomsByNumber (scene : Json) : Bool :=
  let zooms := declaredZooms scene
  let wholes := zooms.filterMap Json.whole?
  zooms.all Json.isLevel && wholes.all fun m => wholes.all fun n => (Binary.ofInteger (n - m)).isOk

section Reading

variable {α : Type} [Number α]

theorem followZoom?_of_followOf {item : Json} {command : Command α}
    (read : followOf item = .ok command) : ∃ value, item.memberOrNull "zoom" = .ok value ∧
      command.followZoom? = (FollowZoom.ofJson value).set? := by
  obtain ⟨start, _, read⟩ := bind_eq_ok_iff.mp read
  obtain ⟨stop, _, read⟩ := bind_eq_ok_iff.mp read
  obtain ⟨value, member, read⟩ := bind_eq_ok_iff.mp read
  cases read
  exact ⟨value, member, rfl⟩

theorem followZoom?_of_zoomOf {level item : Json} {command : Command α}
    (read : zoomOf level item = .ok command) : command.followZoom? = none := by
  obtain ⟨_, _, read⟩ := bind_eq_ok_iff.mp read
  obtain ⟨_, _, read⟩ := bind_eq_ok_iff.mp read
  obtain ⟨_, _, read⟩ := bind_eq_ok_iff.mp read
  obtain ⟨_, _, read⟩ := bind_eq_ok_iff.mp read
  obtain ⟨_, _, read⟩ := bind_eq_ok_iff.mp read
  cases read
  rfl

theorem followZoom?_of_panOf {goal item : Json} {command : Command α}
    (read : panOf goal item = .ok command) : command.followZoom? = none := by
  obtain ⟨_, _, read⟩ := bind_eq_ok_iff.mp read
  obtain ⟨_, _, read⟩ := bind_eq_ok_iff.mp read
  obtain ⟨_, _, read⟩ := bind_eq_ok_iff.mp read
  cases read
  rfl

theorem followZoom?_of_holdOf {item : Json} {command : Command α}
    (read : holdOf item = .ok command) : command.followZoom? = none := by
  obtain ⟨_, _, read⟩ := bind_eq_ok_iff.mp read
  obtain ⟨_, _, read⟩ := bind_eq_ok_iff.mp read
  cases read
  rfl

theorem declaredZoom?_of_ofJson? {item : Json} {command : Command α}
    (read : ofJson? item = .ok (some command)) {zoom : Zoom α}
    (sets : command.followZoom? = some zoom) :
    ∃ value, declaredZoom? item = some value ∧ (FollowZoom.ofJson value).set? = some zoom := by
  obtain ⟨told, follows, read⟩ := bind_eq_ok_iff.mp read
  split at read
  · next mouse =>
    obtain ⟨made, one, read⟩ := bind_eq_ok_iff.mp read
    cases read
    obtain ⟨value, member, declared⟩ := followZoom?_of_followOf one
    refine ⟨value, ?_, declared ▸ sets⟩
    simp [declaredZoom?, follows, Except.toOption, mouse, member]
  · obtain ⟨level, _, read⟩ := bind_eq_ok_iff.mp read
    split at read
    · obtain ⟨goal, _, read⟩ := bind_eq_ok_iff.mp read
      split at read
      · obtain ⟨made, one, read⟩ := bind_eq_ok_iff.mp read
        cases read
        rw [followZoom?_of_panOf one] at sets
        cases sets
      · obtain ⟨held, _, read⟩ := bind_eq_ok_iff.mp read
        split at read
        · obtain ⟨made, one, read⟩ := bind_eq_ok_iff.mp read
          cases read
          rw [followZoom?_of_holdOf one] at sets
          cases sets
        · cases read
    · obtain ⟨made, one, read⟩ := bind_eq_ok_iff.mp read
      cases read
      rw [followZoom?_of_zoomOf one] at sets
      cases sets

theorem mem_declaredZooms {scene : Json} {commands : List (Command α)}
    (read : listOfJson scene = .ok commands) {zoom : Zoom α}
    (member : zoom ∈ followZooms commands) :
    ∃ value ∈ declaredZooms scene, (FollowZoom.ofJson value).set? = some zoom := by
  obtain ⟨command, inCommands, sets⟩ := List.mem_filterMap.mp member
  unfold listOfJson at read
  split at read
  · cases read
    cases inCommands
  · obtain ⟨declared, isDeclared, read⟩ := bind_eq_ok_iff.mp read
    split at read
    · cases read
      cases inCommands
    · obtain ⟨items, walked, read⟩ := bind_eq_ok_iff.mp read
      obtain ⟨made, each, read⟩ := bind_eq_ok_iff.mp read
      cases read
      obtain ⟨found, inMade, isFound⟩ := List.mem_filterMap.mp inCommands
      cases isFound
      obtain ⟨item, inItems, one⟩ := exists_of_mem_left (mapM_eq_ok_iff.mp each).flip inMade
      obtain ⟨value, declares, sets⟩ := declaredZoom?_of_ofJson? one sets
      have walk : (scene.memberOrNull "viewport" >>= Json.elements) = .ok items := by
        rw [isDeclared]
        exact walked
      refine ⟨value, ?_, sets⟩
      rw [declaredZooms, walk]
      exact List.mem_filterMap.mpr ⟨item, inItems, declares⟩

end Reading

theorem set?_of_isLevel {value : Json} (plain : value.isLevel = true) {zoom : Zoom Float}
    (sets : (FollowZoom.ofJson value).set? = some zoom) :
    (∃ level, zoom = .level level) ∨
      ∃ n, value.whole? = some n ∧ zoom = .whole n ∧ (Binary.ofInteger n).isOk = true := by
  cases value with
  | null => cases sets
  | bool b =>
    cases b with
    | false => cases sets
    | true =>
      cases sets
      exact .inr ⟨1, rfl, rfl, by decide +kernel⟩
  | int n =>
    simp only [FollowZoom.ofJson, FollowZoom.set?, Option.ite_none_left_eq_some,
      Option.some.injEq] at sets
    exact .inr ⟨n, rfl, sets.2.symm, plain⟩
  | float x =>
    simp only [FollowZoom.ofJson, FollowZoom.set?, Option.ite_none_left_eq_some,
      Option.some.injEq] at sets
    exact .inl ⟨_, sets.2.symm⟩
  | string _ | array _ | object _ =>
    simp only [Json.isLevel, Bool.not_eq_true'] at plain
    simp only [FollowZoom.ofJson, FollowZoom.set?, plain] at sets
    cases sets

theorem exists_of_isOk {β : Type} {result : Except Failure β} (isOk : result.isOk = true) :
    ∃ value, result = .ok value := by
  cases result with
  | error failure => cases isOk
  | ok value => exact ⟨value, rfl⟩

theorem drawable_of_zoomsByNumber {scene : Json} {commands : List (Command Float)}
    (read : listOfJson scene = .ok commands) (plain : zoomsByNumber scene = true) :
    Zoom.Drawable (followZooms commands) := by
  obtain ⟨levels, near⟩ := Bool.and_eq_true_iff.mp plain
  have declared {zoom : Zoom Float} (member : zoom ∈ followZooms commands) :
      (∃ level, zoom = .level level) ∨ ∃ n ∈ (declaredZooms scene).filterMap Json.whole?,
        zoom = .whole n ∧ (Binary.ofInteger n).isOk = true := by
    obtain ⟨value, inScene, sets⟩ := mem_declaredZooms read member
    obtain isLevel | ⟨n, whole, isWhole⟩ :=
      set?_of_isLevel (List.all_eq_true.mp levels value inScene) sets
    · exact .inl isLevel
    · exact .inr ⟨n, List.mem_filterMap.mpr ⟨value, inScene, whole⟩, isWhole⟩
  have number : ∀ zoom ∈ followZooms commands, ∃ level, zoom.toNumber = .ok level := by
    intro zoom member
    obtain ⟨value, rfl⟩ | ⟨n, -, rfl, inRange⟩ := declared member
    · exact ⟨value, rfl⟩
    · exact exists_of_isOk inRange
  -- Beside a level a whole zoom is a number; only two whole ones can be too far apart.
  refine ⟨number, ?_⟩
  intro low isLow high isHigh
  obtain ⟨value, rfl⟩ | ⟨m, lower, rfl, -⟩ := declared isLow
  · exact Zoom.exists_rise_from_level value (number high isHigh)
  · obtain ⟨value, rfl⟩ | ⟨n, upper, rfl, -⟩ := declared isHigh
    · exact Zoom.exists_rise_to_level value (number _ isLow)
    · exact exists_of_isOk (List.all_eq_true.mp (List.all_eq_true.mp near m lower) n upper)

/-- A scene that is read makes a timeline and the text of a filter, and nothing on the way fails,
if its follows declare their zooms by numbers that are not too far apart. -/
theorem listOfJson_compiles {scene : Json} {commands : List (Command Float)}
    (read : listOfJson scene = .ok commands) (plain : zoomsByNumber scene = true)
    (track : Track Float) {duration : Float} {fps : Int} (positive : 0 < fps)
    (counted : isFinite (duration * ofInt fps) = true) {width height : Int}
    (wide : isFinite (ofInt width : Float) = true) (high : isFinite (ofInt height : Float) = true)
    (interval : Int) :
    ∃ frames crop text,
      Timeline.build commands track duration fps (width, height) = .ok frames ∧
      Timeline.build? commands track duration fps (width, height) = some frames ∧
      Crop.ofTimeline frames width height interval = .ok crop ∧
      Crop.ofTimeline? frames width height interval = some crop ∧
      crop.toFilter = .ok text := by
  obtain ⟨count, isCount⟩ := Timeline.frameCount_of_isFinite counted
  obtain ⟨frames, built⟩ : ∃ frames,
      Timeline.build commands track duration fps (width, height) = .ok frames :=
    ⟨_, Timeline.build_eq_ok_iff.mpr ⟨count, isCount, rfl⟩⟩
  have drawable := (drawable_of_zoomsByNumber read plain).of_isFrom (Timeline.isFrom_of_build built)
  obtain ⟨crop, text, made, written⟩ := Crop.exists_filter drawable wide high interval
  have times := Timeline.time_le_time_of_build positive built
  refine ⟨frames, crop, text, built, ?_, made, ?_, written⟩
  · rw [Timeline.build?_eq, built]
    rfl
  · rw [Timeline.ofTimeline?_eq times, made]
    rfl

/-- An item of each kind, with numbers as texts and with fields that are empty or absent. -/
theorem listOfJson_compiles_each_kind :
    let scene : Json := .object [("viewport", .array [
      .object [("follow", .string "mouse"), ("from", .int 0), ("to", .int 1), ("zoom", .int 2)],
      .object [("follow", .string "mouse"), ("to", .string "1.5"), ("zoom", .string "")],
      .object [("zoom", .string "2.5"), ("center", .object [("x", .int 10), ("y", .float 20)])],
      .object [("pan", .string "mouse"), ("at", .bool true), ("duration", .null)],
      .object [("hold", .bool true)], .object []])]
    let track : Track Float := [⟨0, 0, 0⟩, ⟨500, 30, 40⟩]
    ∃ commands frames crop text, listOfJson scene = .ok commands ∧
      Timeline.build? commands track 2 30 (1920, 1080) = some frames ∧
      Crop.ofTimeline? frames 1920 1080 15 = some crop ∧ crop.toFilter = .ok text := by
  intro scene track
  obtain ⟨commands, read⟩ : ∃ commands : List (Command Float), listOfJson scene = .ok commands :=
    ⟨_, rfl⟩
  have plain : zoomsByNumber scene = true := by decide +kernel
  have counted : isFinite ((2 : Float) * ofInt 30) = true := by decide +kernel
  have wide : isFinite (ofInt 1920 : Float) = true := LawfulNumber.isFinite_ofInt (by decide)
  have high : isFinite (ofInt 1080 : Float) = true := LawfulNumber.isFinite_ofInt (by decide)
  obtain ⟨frames, crop, text, _, built, _, made, written⟩ :=
    listOfJson_compiles read plain track (by decide) counted wide high 15
  exact ⟨commands, frames, crop, text, read, built, made, written⟩

/-- A zoom declared by a text is read, and its timeline is built, but no crop can be made of it. -/
theorem textual_zoom_uncompiled :
    let scene : Json := .object [("viewport", .array
      [.object [("follow", .string "mouse"), ("zoom", .string "2")]])]
    ∃ (commands : List (Command Float)) (frames : List (Frame Float)),
      listOfJson scene = .ok commands ∧ (∀ command ∈ commands, command.IsFinite) ∧
      Timeline.build commands [] 1 2 (1920, 1080) = .ok frames ∧
      Crop.ofTimeline frames 1920 1080 15 = .error .wrongType := by
  intro scene
  refine ⟨_, _, rfl, ?_, rfl, ?_⟩
  · have finite : isFinite (0 : Float) = true ∧ isFinite (followEnd : Float) = true :=
      ⟨isFinite_zero, LawfulNumber.isFinite_ofInt (by decide)⟩
    exact List.forall_mem_singleton.mpr ⟨finite.1, finite.2, trivial⟩
  · have later : ¬ (Timeline.moment 2 1 : Float) ≤ Timeline.moment 2 0 := by decide +kernel
    exact Crop.ofTimeline_of_rise_eq_error later rfl 1920 1080 15

end Command

end Screencast
