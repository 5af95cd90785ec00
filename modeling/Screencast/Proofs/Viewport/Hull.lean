import Mathlib.Data.List.Induction
import Screencast.Proofs.Curve.Eval
import Screencast.Proofs.Viewport.Run
import Screencast.Proofs.Viewport.Zoom

/-!
The viewport stays within what it was given: the zoom between the levels that the commands name and
the full picture, the centre between the places that the commands and the track of the cursor name
and the middle of the picture. Whatever is on its way from one value to another lies between the
two, so that no step leads out of the span, and the settled state carries nothing out of it.
-/

namespace Screencast

def Spans (given : List Rat) (x : Rat) : Prop :=
  ∃ low ∈ given, ∃ high ∈ given, low ≤ x ∧ x ≤ high

namespace Spans

variable {given : List Rat} {x a b p : Rat}

theorem of_mem (member : x ∈ given) : Spans given x :=
  ⟨x, member, x, member, le_rfl, le_rfl⟩

theorem of_le (left : Spans given a) (right : Spans given b) (above : a ≤ x) (below : x ≤ b) :
    Spans given x := by
  obtain ⟨low, lowGiven, _, _, low_le, _⟩ := left
  obtain ⟨_, _, high, highGiven, _, le_high⟩ := right
  exact ⟨low, lowGiven, high, highGiven, low_le.trans above, below.trans le_high⟩

theorem partway (left : Spans given a) (right : Spans given b) (begun : 0 ≤ p) (notPast : p ≤ 1) :
    Spans given (a + (b - a) * p) := by
  rcases le_total a b with le | le
  · have gap : 0 ≤ b - a := sub_nonneg.mpr le
    have gone : 0 ≤ (b - a) * p := mul_nonneg gap begun
    have short : (b - a) * p ≤ b - a := mul_le_of_le_one_right gap notPast
    exact of_le left right (by linarith) (by linarith)
  · have gap : 0 ≤ a - b := sub_nonneg.mpr le
    have gone : 0 ≤ (a - b) * p := mul_nonneg gap begun
    have short : (a - b) * p ≤ a - b := mul_le_of_le_one_right gap notPast
    have turned : (b - a) * p = -((a - b) * p) := by ring
    exact of_le right left (by linarith) (by linarith)

theorem le_of_forall_le {bound : Rat} (spans : Spans given x) (least : ∀ y ∈ given, bound ≤ y) :
    bound ≤ x := by
  obtain ⟨low, lowGiven, _, _, low_le, _⟩ := spans
  exact (least low lowGiven).trans low_le

theorem eq_of_forall_eq {only : Rat} (spans : Spans given x) (alone : ∀ y ∈ given, y = only) :
    x = only := by
  obtain ⟨low, lowGiven, high, highGiven, low_le, le_high⟩ := spans
  rw [alone low lowGiven] at low_le
  rw [alone high highGiven] at le_high
  exact le_antisymm le_high low_le

end Spans

def Encloses (places : List (Point Rat)) (point : Point Rat) : Prop :=
  Spans (places.map (·.x)) point.x ∧ Spans (places.map (·.y)) point.y

theorem Encloses.of_mem {places : List (Point Rat)} {point : Point Rat} (member : point ∈ places) :
    Encloses places point :=
  ⟨.of_mem (List.mem_map_of_mem member), .of_mem (List.mem_map_of_mem member)⟩

namespace Ease

theorem rest_eq (t : Rat) : rest t = 2 - 2 * t := by
  change (-2 : Rat) * t + 2 = 2 - 2 * t
  ring

theorem inOut_bounds {t : Rat} (begun : 0 ≤ t) (notPast : t ≤ 1) : 0 ≤ inOut t ∧ inOut t ≤ 1 := by
  have halfway : (Number.half : Rat) = 1 / 2 := rfl
  unfold inOut
  rw [rest_eq, halfway]
  split
  · next early =>
    change 0 ≤ (2 : Rat) * t * t ∧ (2 : Rat) * t * t ≤ 1
    constructor <;> nlinarith
  · next late =>
    change 0 ≤ (1 : Rat) - (2 - 2 * t) * (2 - 2 * t) / 2 ∧
      (1 : Rat) - (2 - 2 * t) * (2 - 2 * t) / 2 ≤ 1
    constructor <;> nlinarith [not_lt.mp late]

theorem inOut_one : inOut (1 : Rat) = 1 := by
  have late : ¬ (1 : Rat) < Number.half := by
    change ¬ (1 : Rat) < 1 / 2
    norm_num
  rw [inOut, if_neg late, rest_eq]
  norm_num

end Ease

theorem Phase.progress_bounds {time start duration progress : Rat}
    (inside : Phase.of time start duration = .inside progress) : 0 ≤ progress ∧ progress ≤ 1 := by
  unfold Phase.of at inside
  dsimp only at inside
  split at inside
  · cases inside
  · next opened =>
    split at inside
    · next notClosed =>
      obtain rfl := Phase.inside.inj inside
      split
      · next long =>
        have length : (0 : Rat) < Number.larger 0 duration := long
        have since : 0 ≤ time - start := sub_nonneg.mpr (not_lt.mp opened)
        exact ⟨div_nonneg since length.le, (div_le_one length).mpr (by linarith)⟩
      · exact ⟨zero_le_one, le_rfl⟩
    · cases inside

theorem Spans.interpolate {given : List Rat} {origin target time start duration progress : Rat}
    (left : Spans given origin) (right : Spans given target)
    (inside : Phase.of time start duration = .inside progress) :
    Spans given (Ease.interpolate origin target progress) := by
  obtain ⟨begun, notPast⟩ := Phase.progress_bounds inside
  obtain ⟨some_, all⟩ := Ease.inOut_bounds begun notPast
  exact left.partway right some_ all

namespace Track

variable {places : List (Point Rat)} {track : Track Rat} {time : Rat}

theorem encloses_between {before after : Sample Rat} (left : before.point ∈ places)
    (right : after.point ∈ places) (notBefore : before.time ≤ time) (notAfter : time ≤ after.time) :
    Encloses places (between time before after) := by
  unfold between
  split
  · exact .of_mem left
  · split
    · exact .of_mem right
    · next notFirst notLast =>
      have gone : 0 ≤ time - before.time := sub_nonneg.mpr notBefore
      have apart : time - before.time ≤ after.time - before.time := by linarith
      have begun : 0 ≤ (time - before.time) / (after.time - before.time) :=
        div_nonneg gone (gone.trans apart)
      have notPast : (time - before.time) / (after.time - before.time) ≤ 1 :=
        div_le_one_of_le₀ apart (gone.trans apart)
      obtain ⟨leftX, leftY⟩ := Encloses.of_mem left
      obtain ⟨rightX, rightY⟩ := Encloses.of_mem right
      exact ⟨leftX.partway rightX begun notPast, leftY.partway rightY begun notPast⟩

theorem encloses_inside? {place : Point Rat} (given : ∀ sample ∈ track, sample.point ∈ places)
    (found : track.inside? time = some place) : Encloses places place := by
  induction track with
  | nil => cases found
  | cons before later ih =>
    cases later with
    | nil => cases found
    | cons after rest =>
      rw [inside?] at found
      split at found
      · next enclosed =>
        obtain rfl := Option.some_inj.mp found
        exact encloses_between (given before (by simp)) (given after (by simp))
          enclosed.1 enclosed.2
      · exact ih (fun sample member => given sample (List.mem_cons_of_mem _ member)) found

/-- Wherever the cursor is said to be, in order recorded or not, it is among the samples. -/
theorem encloses_positionAt (recorded : track ≠ [])
    (given : ∀ sample ∈ track, sample.point ∈ places) (time : Rat) :
    Encloses places (track.positionAt time) := by
  cases track with
  | nil => exact absurd rfl recorded
  | cons first rest =>
    have last : Encloses places ((first :: rest).getLast (List.cons_ne_nil first rest)).point :=
      .of_mem (given _ (List.getLast_mem _))
    rw [positionAt]
    split
    · exact .of_mem (given first (by simp))
    · split
      · exact last
      · cases found : inside? time (first :: rest) with
        | none => exact last
        | some place => exact encloses_inside? given found

end Track

def Command.level? : Command Rat → Option (Zoom Rat)
  | .follow _ _ declared => declared.set?
  | .zoom level .. => some (.level level)
  | _ => none

def Target.explicit? : Target Rat → Option (Point Rat)
  | .mouse => none
  | .point place => some place

def Command.place? : Command Rat → Option (Point Rat)
  | .zoom _ _ _ center => center.explicit?
  | .pan goal .. => goal.explicit?
  | _ => none

/-- The levels that a zoom may be between: the whole picture, and those of the commands. -/
def levels (commands : List (Command Rat)) : List Rat :=
  1 :: commands.filterMap fun command => command.level?.bind fun zoom => zoom.toNumber.toOption

/-- The places that a centre may be between: the middle of the picture, those where the cursor was
seen, and those of the commands. -/
def places (commands : List (Command Rat)) (track : Track Rat) (resolution : Int × Int) :
    List (Point Rat) :=
  ⟨Number.ofInt resolution.1 / 2, Number.ofInt resolution.2 / 2⟩ ::
    (track.map Sample.point ++ commands.filterMap Command.place?)

/-- Whether a zoom lies between the levels; the only other one is that of a follow whose declared
value is no number. -/
def Zoom.Given (commands : List (Command Rat)) (zoom : Zoom Rat) : Prop :=
  match zoom.toNumber with
  | .ok value => Spans (levels commands) value
  | .error _ => ∃ command ∈ commands, command.level? = some zoom

theorem Zoom.given_of_level? {commands : List (Command Rat)} {command : Command Rat}
    (member : command ∈ commands) {zoom : Zoom Rat} (sets : command.level? = some zoom) :
    Zoom.Given commands zoom := by
  unfold Zoom.Given
  cases number : zoom.toNumber with
  | error failure => exact ⟨command, member, sets⟩
  | ok level =>
    refine Spans.of_mem (List.mem_cons_of_mem _ (List.mem_filterMap.mpr ⟨command, member, ?_⟩))
    rw [sets, Option.bind_some, number]
    rfl

variable (commands : List (Command Rat)) (track : Track Rat) (resolution : Int × Int)

structure Frame.Given (frame : Frame Rat) : Prop where
  zoom : Zoom.Given commands frame.zoom
  center : Encloses (places commands track resolution) frame.center

structure Settled.Given (settled : Settled Rat) : Prop where
  zoom : Spans (levels commands) settled.zoom
  center : Encloses (places commands track resolution) settled.center
  origins : ∀ index origin, settled.origins.find? index = some origin →
    Encloses (places commands track resolution) origin

variable {commands track resolution}

theorem Target.encloses_place {goal : Target Rat} {fallback : Point Rat}
    (explicit : ∀ place, goal.explicit? = some place →
      place ∈ places commands track resolution)
    (here : Encloses (places commands track resolution) fallback) (time : Rat) :
    Encloses (places commands track resolution) (goal.place track time fallback) := by
  cases goal with
  | point place => exact .of_mem (explicit place rfl)
  | mouse =>
    rw [Target.place]
    split
    · exact here
    · next recorded =>
      refine Track.encloses_positionAt (by simpa using recorded) (fun sample member => ?_) time
      exact List.mem_cons_of_mem _ (List.mem_append_left _ (List.mem_map_of_mem member))

theorem mem_places_of_place? {command : Command Rat} (member : command ∈ commands)
    {place : Point Rat} (named : command.place? = some place) :
    place ∈ places commands track resolution :=
  List.mem_cons_of_mem _
    (List.mem_append_right _ (List.mem_filterMap.mpr ⟨command, member, named⟩))

variable {frame : Frame Rat} {settled : Settled Rat}

theorem Settled.Given.origin (given : settled.Given commands track resolution)
    (shown : frame.Given commands track resolution) (index : Nat) :
    Encloses (places commands track resolution) (settled.origin index frame) := by
  unfold Settled.origin
  cases noted : settled.origins.find? index with
  | none => exact shown.center
  | some origin => exact given.origins index origin noted

theorem Settled.Given.noteOrigin (given : settled.Given commands track resolution)
    (shown : frame.Given commands track resolution) (index : Nat) :
    (settled.noteOrigin index frame).Given commands track resolution := by
  unfold Settled.noteOrigin
  split
  · exact given
  · refine ⟨given.zoom, given.center, fun other origin noted => ?_⟩
    rw [Table.find?_put] at noted
    split at noted
    · obtain rfl := Option.some_inj.mp noted
      exact shown.center
    · exact given.origins other origin noted

namespace Command

/-- No command leads out of the span, wherever in it the frame and the settled state are. -/
theorem apply_given {command : Command Rat} (member : command ∈ commands) (index : Nat)
    (shown : frame.Given commands track resolution)
    (given : settled.Given commands track resolution) :
    (command.apply index track (frame, settled)).1.Given commands track resolution ∧
      (command.apply index track (frame, settled)).2.Given commands track resolution := by
  cases command with
  | follow start stop zoom =>
    refine ⟨?_, given⟩
    change (frame.follow start stop zoom track).Given commands track resolution
    unfold Frame.follow
    split
    · refine ⟨?_, Target.encloses_place (fun _ named => by cases named) shown.center _⟩
      cases sets : zoom.set? with
      | none => exact shown.zoom
      | some level =>
        have written : (Command.follow start stop zoom).level? = some level := sets
        exact Zoom.given_of_level? member written
    · exact shown
  | zoom level start duration center =>
    have reached : Zoom.Given commands (.level level) := Zoom.given_of_level? member rfl
    change (settled.zoomStep frame level start duration center track).1.Given _ _ _ ∧
      (settled.zoomStep frame level start duration center track).2.Given _ _ _
    unfold Settled.zoomStep
    split
    · exact ⟨shown, given⟩
    · next progress inside =>
      refine ⟨⟨given.zoom.interpolate reached inside, ?_⟩, given⟩
      exact Target.encloses_place (fun _ named => mem_places_of_place? member named) shown.center _
    · exact ⟨⟨reached, shown.center⟩, ⟨reached, given.center, given.origins⟩⟩
  | pan goal start duration =>
    have origin := given.origin shown index
    have noted := given.noteOrigin shown index
    have explicit : ∀ place, goal.explicit? = some place →
        place ∈ places commands track resolution := fun _ named => mem_places_of_place? member named
    change (settled.panStep index frame goal start duration track).1.Given _ _ _ ∧
      (settled.panStep index frame goal start duration track).2.Given _ _ _
    unfold Settled.panStep
    split
    · exact ⟨shown, given⟩
    · next progress inside =>
      have target := Target.encloses_place explicit shown.center (frame.time * 1000)
      exact ⟨⟨shown.zoom, origin.1.interpolate target.1 inside,
        origin.2.interpolate target.2 inside⟩, noted⟩
    · dsimp only
      split
      · exact ⟨shown, noted⟩
      · exact ⟨shown, noted.zoom, Target.encloses_place explicit origin _, noted.origins⟩
  | hold start stop =>
    refine ⟨?_, given⟩
    change (frame.hold start stop settled).Given commands track resolution
    unfold Frame.hold
    split
    · exact ⟨given.zoom, given.center⟩
    · exact shown

theorem applyAll_given {applied : List (Command Rat)} (among : ∀ c ∈ applied, c ∈ commands)
    (shown : frame.Given commands track resolution)
    (given : settled.Given commands track resolution) :
    (applyAll applied track (frame, settled)).1.Given commands track resolution ∧
      (applyAll applied track (frame, settled)).2.Given commands track resolution := by
  induction applied using List.reverseRecOn with
  | nil => exact ⟨shown, given⟩
  | append_singleton before command ih =>
    obtain ⟨shownBefore, givenBefore⟩ := ih fun c member => among c (List.mem_append_left _ member)
    rw [applyAll_concat]
    exact apply_given (among command (by simp)) before.length shownBefore givenBefore

end Command

theorem Settled.Given.initial :
    (Settled.initial resolution.1 resolution.2 : Settled Rat).Given commands track resolution where
  zoom := .of_mem (by simp [levels, Settled.initial])
  center := .of_mem (by simp [places, Settled.initial])
  origins index origin noted := by cases noted

theorem Settled.Given.next {applied : List (Command Rat)} (among : ∀ c ∈ applied, c ∈ commands)
    (given : settled.Given commands track resolution) (time : Rat) :
    (settled.next applied track time).1.Given commands track resolution ∧
      (settled.next applied track time).2.Given commands track resolution := by
  have start : (settled.frame time).Given commands track resolution := ⟨given.zoom, given.center⟩
  obtain ⟨shown, after⟩ := Command.applyAll_given among start given
  refine ⟨shown, ?_⟩
  change (Settled.carry _ settled.center _).Given commands track resolution
  unfold Settled.carry
  split
  · exact after
  · exact ⟨after.zoom, shown.center, after.origins⟩

namespace Timeline

theorem exists_build (commands : List (Command Rat)) (track : Track Rat) (duration : Rat)
    (fps : Int) (resolution : Int × Int) :
    ∃ frames, build commands track duration fps resolution = .ok frames := by
  obtain ⟨count, counted⟩ := frameCount_of_isFinite (rfl : Number.isFinite (duration * fps) = true)
  exact ⟨_, build_eq_ok_iff.mpr ⟨count, counted, rfl⟩⟩

theorem build_given {duration : Rat} {fps : Int} {frames : List (Frame Rat)}
    (built : build commands track duration fps resolution = .ok frames) :
    ∀ frame ∈ frames, frame.Given commands track resolution := by
  obtain ⟨count, _, rfl⟩ := build_eq_ok_iff.mp built
  have among : ∀ c ∈ Command.sortByStart commands, c ∈ commands := fun c member =>
    (Order.sortOn_perm Command.start commands).subset member
  intro frame member
  obtain ⟨index, _, rfl⟩ := List.mem_map.mp member
  have before : (settledBefore (Command.sortByStart commands) track fps
      (.initial resolution.1 resolution.2) index).Given commands track resolution :=
    settledBefore_induction (fun _ settled => settled.Given commands track resolution)
      Settled.Given.initial
      (fun index settled given => (given.next among (moment fps index)).2) index
  exact (before.next among (moment fps index)).1

/-- Every frame shows a zoom between the levels it was given and a centre between the places,
counted exactly. So the zoom is nowhere below one if no level is, and the centre rests where there
is no other place than the middle of the picture. -/
theorem build_within_given (commands : List (Command Rat)) (track : Track Rat) (duration : Rat)
    (fps : Int) (resolution : Int × Int) :
    ∃ frames, build commands track duration fps resolution = .ok frames ∧
      (∀ frame ∈ frames, Zoom.Given commands frame.zoom ∧
        Encloses (places commands track resolution) frame.center) ∧
      ((∀ level ∈ levels commands, 1 ≤ level) →
        ∀ frame ∈ frames, ∀ level, frame.zoom.toNumber = .ok level → 1 ≤ level) ∧
      (track = [] → (∀ command ∈ commands, command.place? = none) →
        ∀ frame ∈ frames, frame.center =
          ⟨Number.ofInt resolution.1 / 2, Number.ofInt resolution.2 / 2⟩) := by
  obtain ⟨frames, built⟩ := exists_build commands track duration fps resolution
  have given := build_given built
  refine ⟨frames, built,
    fun frame member => ⟨(given frame member).zoom, (given frame member).center⟩, ?_, ?_⟩
  · intro least frame member level isLevel
    have spans := (given frame member).zoom
    rw [Zoom.Given, isLevel] at spans
    exact Spans.le_of_forall_le spans least
  · intro untracked unnamed frame member
    have none : commands.filterMap Command.place? = [] := List.filterMap_eq_nil_iff.mpr unnamed
    obtain ⟨x, y⟩ := (given frame member).center
    simp only [places, untracked, none, List.map_nil, List.append_nil, List.map_cons] at x y
    have left := x.eq_of_forall_eq fun _ isX => List.mem_singleton.mp isX
    have top := y.eq_of_forall_eq fun _ isY => List.mem_singleton.mp isY
    exact congrArg₂ Point.mk left top

end Timeline

end Screencast
