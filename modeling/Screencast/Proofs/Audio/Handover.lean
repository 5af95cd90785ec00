import Mathlib
import Screencast.Proofs.Audio.Turns

/-!
When a segment is over: at its cut if it has one, and else when its clip is over by itself. In a
recorded session neither comes after the next play of the channel.
-/

namespace Screencast

variable {α : Type}

def Filter.cutTime? : Filter α → Option α
  | cut time => some time
  | _ => none

def Segment.cutTime? (segment : Segment α) : Option α :=
  segment.chain.findSome? Filter.cutTime?

variable [Number α]

namespace Segment

theorem filterMap_volumeFilters {β : Type} {find : Filter α → Option β}
    (volume : ∀ level, find (.volume level) = none)
    (automation : ∀ curve, find (.automation curve) = none) (clip : Clip α) (channel : Channel α)
    (curve : Option (Curve α)) : (volumeFilters clip channel curve).filterMap find = [] := by
  refine List.filterMap_eq_nil_iff.mpr fun filter member => ?_
  obtain ⟨level, rfl⟩ | ⟨own, _, rfl⟩ := volume_or_automation member
  · exact volume level
  · exact automation own

theorem volumeFilters_uncut (clip : Clip α) (channel : Channel α) (curve : Option (Curve α)) :
    (volumeFilters clip channel curve).findSome? Filter.cutTime? = none := by
  rw [← List.head?_filterMap, filterMap_volumeFilters (fun _ => rfl) fun _ => rfl]
  rfl

theorem fadeOut?_uncut (clip : Clip α) (time : α) (stop : Option (α × α)) :
    (fadeOut? clip time stop).toList.findSome? Filter.cutTime? = none := by
  cases made : fadeOut? clip time stop with
  | none => rfl
  | some filter =>
    obtain ⟨start, length, rfl⟩ := eq_fadeOut made
    rfl

/-- A segment is cut off at the stop that cuts its clip short, and nowhere else. -/
theorem cutTime?_chainOf (clip : Clip α) (time : α) (stop : Option (α × α)) (channel : Channel α)
    (curve : Option (Curve α)) :
    (chainOf clip time stop channel curve).findSome? Filter.cutTime? =
      (cut? clip time stop).map (·.1) := by
  have skip : (if 0 < clip.offset then [Filter.skip clip.offset] else []).findSome?
      Filter.cutTime? = none := by
    split <;> rfl
  have loop : (if clip.loop then [Filter.loop] else ([] : List (Filter α))).findSome?
      Filter.cutTime? = none := by
    split <;> rfl
  have fadeIn : (if 0 < clip.fadeIn then [Filter.fadeIn time clip.fadeIn] else []).findSome?
      Filter.cutTime? = none := by
    split <;> rfl
  unfold chainOf
  simp only [List.findSome?_append, skip, loop, fadeIn, fadeOut?_uncut, volumeFilters_uncut,
    Option.none_or, Option.or_none]
  cases cut? clip time stop with
  | none => rfl
  | some cut => rfl

theorem cutTime?_of_loop {clip : Clip α} (loops : clip.loop = true) (time : α)
    (stop : Option (α × α)) (channel : Channel α) (curve : Option (Curve α)) :
    (chainOf clip time stop channel curve).findSome? Filter.cutTime? = stop.map (·.1) := by
  have always : cutsShort (clip.naturalEnd? time) = fun _ => true := by
    rw [Clip.naturalEnd?, if_pos loops]
    rfl
  rw [cutTime?_chainOf, cut?, always]
  cases stop <;> rfl

end Segment

def Event.soundsOn (id : Int) (events : List (Event α)) : Nat :=
  ((events.filter (·.channel == id)).filterMap Event.sound?).length

/-- Where a play stands among the plays of its channel that are heard, and what becomes of it. -/
theorem Part.segment_of_play {events before later : List (Event α)} {event : Event α}
    (channels : Channels α) (initial : Table Int α) (split : events = before ++ event :: later)
    (mixed : (channels.get event.channel).output.isMixed = true) {file : Path} {clip : Clip α}
    (sound : event.sound? = some (file, clip)) :
    ∃ curve, ((segments (ofTimeline events channels initial)).filter
        (·.channel == event.channel))[Event.soundsOn event.channel before]? =
      some (Heard.toSegment ⟨file, clip, event.time,
          (later.filter (·.channel == event.channel)).findSome? (Event.stopsFrom event.time)⟩
        (channels.get event.channel) event.channel curve
        (Event.soundsOn event.channel before)) := by
  have own : events.filter (·.channel == event.channel) =
      before.filter (·.channel == event.channel) ++
        event :: later.filter (·.channel == event.channel) := by
    rw [split, List.filter_append, List.filter_cons_of_pos (by simp)]
  unfold Event.soundsOn
  rw [segments_ofTimeline_channel, own]
  simp only [segmentsOn, mixed, if_true]
  rw [List.getElem?_map, List.getElem?_zipIdx, Heard.ofEvents_append _ _ sound]
  exact ⟨_, by rw [Option.map_some, Option.map_some, Nat.zero_add]⟩

def Session.segments (session : Session α) : List (Segment α) :=
  Part.segments (Part.ofTimeline session.timeline session.channels session.volumes)

theorem Session.segment_of_play {session : Session α} {before later : List (Event α)}
    {event : Event α} (timeline : session.timeline = before ++ event :: later)
    (mixed : (session.channel event.channel).output.isMixed = true) {file : Path} {clip : Clip α}
    (sound : event.sound? = some (file, clip)) :
    ∃ curve, (session.segments.filter (·.channel == event.channel))[
        Event.soundsOn event.channel before]? =
      some (Heard.toSegment ⟨file, clip, event.time,
          (later.filter (·.channel == event.channel)).findSome? (Event.stopsFrom event.time)⟩
        (session.channel event.channel) event.channel curve
        (Event.soundsOn event.channel before)) :=
  Part.segment_of_play _ _ timeline mixed sound

theorem Event.isPlay_of_sound {event : Event α} {file : Path} {clip : Clip α}
    (sound : event.sound? = some (file, clip)) : event.isPlay = true := by
  rw [isPlay, action_of_sound sound]

theorem Event.time_of_stopsFrom {time finish fadeOut : α} {event : Event α}
    (stops : event.stopsFrom time = some (finish, fadeOut)) : event.time = finish := by
  unfold stopsFrom at stops
  split at stops
  · split at stops
    · exact (Prod.mk.inj (Option.some_inj.mp stops)).1
    · cases stops
  · cases stops

theorem Event.isSome_findSome?_stopsFrom {events : List (Event α)} {time : α} :
    (events.findSome? (Event.stopsFrom time)).isSome = true ↔
      ∃ stop ∈ events, time ≤ stop.time ∧ ∃ fadeOut, stop.action = .stop fadeOut := by
  rw [List.findSome?_isSome_iff]
  refine exists_congr fun event => and_congr_right fun _ => ?_
  unfold Event.stopsFrom
  cases event.action with
  | play clip => simp
  | stop fadeOut => simp
  | volume level ramp => simp

/-- The first stop on the channel after a play, if there is another play, comes no later than that
one does. -/
theorem Session.InTurn.stop_before {session : Session α} {time : α} (turn : session.InTurn time)
    {before between later : List (Event α)} {first second : Event α}
    (timeline : session.timeline = before ++ first :: between ++ second :: later)
    (same : first.channel = second.channel) (firstPlays : first.isPlay = true)
    (secondPlays : second.isPlay = true) :
    ∃ finish fadeOut, ((between ++ second :: later).filter (·.channel == first.channel)).findSome?
        (Event.stopsFrom first.time) = some (finish, fadeOut) ∧
      0 ≤ finish ∧ finish ≤ second.time := by
  obtain ⟨stop, between_mem, onChannel, fadeOut, action⟩ :=
    Event.Alternating.exists_stop (timeline ▸ turn.alternating) firstPlays secondPlays same
  obtain ⟨early, _, across⟩ := List.pairwise_append.mp (timeline ▸ turn.ordered)
  obtain ⟨_, fromFirst, _⟩ := List.pairwise_append.mp early
  have afterFirst : first.time ≤ stop.time := (List.pairwise_cons.mp fromFirst).1 stop between_mem
  -- The first stop that is found need not be this one, but it lies between the plays as well.
  have some_stop : ((between.filter (·.channel == first.channel)).findSome?
      (Event.stopsFrom first.time)).isSome = true :=
    Event.isSome_findSome?_stopsFrom.mpr ⟨stop,
      List.mem_filter.mpr ⟨between_mem, by simp [onChannel, same]⟩, afterFirst, fadeOut, action⟩
  obtain ⟨⟨finish, fade⟩, found⟩ := Option.isSome_iff_exists.mp some_stop
  obtain ⟨event, member, isStop⟩ := List.exists_of_findSome?_eq_some found
  have inBetween := (List.mem_filter.mp member).1
  obtain rfl := Event.time_of_stopsFrom isStop
  refine ⟨_, fade, ?_, ?_, across event (by simp [inBetween]) second (by simp)⟩
  · rw [List.filter_append, List.findSome?_append, found, Option.some_or]
  · exact turn.nonneg event (by simp [timeline, inBetween])

variable [LawfulNumber α]

theorem Segment.over_by_stop {clip : Clip α} {time finish fadeOut limit : α}
    (timed : Number.isFinite time = true ∨ 0 ≤ time) (stops : finish ≤ finish)
    (inside : finish ≤ limit) (channel : Channel α) (curve : Option (Curve α)) :
    ((chainOf clip time (some (finish, fadeOut)) channel curve).findSome?
        Filter.cutTime?).getD (time + clip.playable) ≤ limit ∧
      (clip.loop = true → ((chainOf clip time (some (finish, fadeOut)) channel curve).findSome?
        Filter.cutTime?).isSome = true) := by
  cases loops : clip.loop with
  | true =>
    rw [cutTime?_of_loop loops]
    exact ⟨inside, fun _ => rfl⟩
  | false =>
    rw [cutTime?_chainOf]
    unfold cut?
    rw [Option.filter_some]
    refine ⟨?_, fun isTrue => by cases isTrue⟩
    have natural : clip.naturalEnd? time = some (time + clip.playable) := by
      simp [Clip.naturalEnd?, loops]
    rw [natural]
    by_cases early : finish < time + clip.playable
    · rw [if_pos (by simpa [cutsShort] using early)]
      exact inside
    · rw [if_neg (by simpa [cutsShort] using early)]
      have ends : time + clip.playable ≤ time + clip.playable :=
        LawfulNumber.self_le_right (Number.le_add_larger timed)
      exact LawfulNumber.le_trans (Number.le_of_not_lt stops ends early) inside

theorem Segment.over_of_stop {clip : Clip α} {time finish fadeOut limit : α} (nonneg : 0 ≤ time)
    (comparable : 0 ≤ finish) (inside : finish ≤ limit) (channel : Channel α)
    (curve : Option (Curve α)) :
    ((chainOf clip time (some (finish, fadeOut)) channel curve).findSome?
        Filter.cutTime?).getD (time + clip.playable) ≤ limit ∧
      (clip.loop = true → ((chainOf clip time (some (finish, fadeOut)) channel curve).findSome?
        Filter.cutTime?).isSome = true) :=
  over_by_stop (.inr nonneg) (LawfulNumber.self_le_right comparable) inside channel curve

/-- One sound at a time. In a session without declared clips, whatever moves have been made and
whichever of them failed, the segment of a play is over when the next play of its channel begins:
at its cut, and else at the end of its clip. A clip that loops is always cut. -/
theorem Studio.segment_over_before_next_play {studio : Studio α} {moves : List (α × Studio.Move α)}
    (undeclared : studio.session.timeline = []) (unbegun : studio.session.start = none)
    (finite : ∀ move ∈ moves, Number.isFinite move.1 = true)
    (forward : (moves.map (·.1)).Pairwise (· ≤ ·)) (once : moves.countP (·.2.isBegin) ≤ 1)
    {before between later : List (Event α)} {first second : Event α}
    (timeline :
      (studio.run moves).session.timeline = before ++ first :: between ++ second :: later)
    (same : first.channel = second.channel)
    (mixed : ((studio.run moves).session.channel first.channel).output.isMixed = true)
    {file : Path} {clip : Clip α} (heard : first.sound? = some (file, clip))
    (secondPlays : second.isPlay = true) :
    ∃ segment,
      ((studio.run moves).session.segments.filter (·.channel == first.channel))[
          Event.soundsOn first.channel before]? = some segment ∧
        segment.index = Event.soundsOn first.channel before ∧ segment.file = file ∧
        segment.cutTime?.getD (first.time + clip.playable) ≤ second.time ∧
        (clip.loop = true → segment.cutTime?.isSome = true) := by
  have begins : studio.begins moves ≤ 1 := by
    simpa [Studio.begins, unbegun] using once
  have ready : ∀ move ∈ moves, studio.session.ReadyAt move.1 := fun move _ =>
    ⟨fun start begun => by simp [unbegun] at begun, .of_empty undeclared _⟩
  obtain ⟨time, turn⟩ := Studio.run_inTurn finite forward begins ready
    ⟨0, .of_empty undeclared 0⟩
  have firstPlays := Event.isPlay_of_sound heard
  obtain ⟨finish, fadeOut, found, comparable, inside⟩ :=
    turn.stop_before timeline same firstPlays secondPlays
  have split : (studio.run moves).session.timeline =
      before ++ first :: (between ++ second :: later) := by
    simpa using timeline
  obtain ⟨curve, placed⟩ := Session.segment_of_play split mixed heard
  have nonneg := turn.nonneg first (by simp [timeline])
  refine ⟨_, placed, rfl, rfl, ?_⟩
  rw [found]
  exact Segment.over_of_stop nonneg comparable inside _ curve

/-- A clip that loops gives way to another play of the same file. -/
theorem Studio.segment_over_before_next_play_looping :
    let studio : Studio Rat :=
      { settings := {}, host := { known := [("/music.mp3", ⟨10000, none, none⟩)] },
        session := Session.new, clock := 0 }
    let music (loop : Bool) : Move Rat :=
      .play { file := "music.mp3", channel := 2, wait := false, fadeIn := 0, fadeOut := 0, loop }
    let moves : List (Rat × Move Rat) := [(5, .begin), (6, music true), (8, music false)]
    let clip (loop : Bool) : Clip Rat :=
      ⟨some ⟨.root, ["music.mp3"]⟩, 0, 0, loop, none, 10000, 0⟩
    let first : Event Rat := ⟨2, 1000, .play (clip true)⟩
    let second : Event Rat := ⟨2, 3000, .play (clip false)⟩
    (studio.run moves).session.timeline =
        [] ++ first :: [⟨2, 3000, .stop 500⟩] ++ second :: [] ∧
      ∃ segment,
        ((studio.run moves).session.segments.filter (·.channel == 2))[0]? = some segment ∧
          segment.index = 0 ∧ segment.file = ⟨.root, ["music.mp3"]⟩ ∧
          segment.cutTime?.getD (1000 + (clip true).playable) ≤ 3000 ∧
          segment.cutTime?.isSome = true := by
  intro studio music moves clip first second
  have timeline : (studio.run moves).session.timeline =
      [] ++ first :: [⟨2, 3000, .stop 500⟩] ++ second :: [] := by
    cbv
  have forward : (moves.map (·.1)).Pairwise (· ≤ ·) := by
    simp only [moves, List.map_cons, List.map_nil]
    change [(5 : Rat), 6, 8].Pairwise fun x y => (x : Rat) ≤ y
    decide
  obtain ⟨segment, placed, index, file, finished, cut⟩ := segment_over_before_next_play rfl rfl
    (fun _ _ => rfl) forward (by decide) timeline rfl (by cbv) rfl rfl
  exact ⟨timeline, segment, placed, index, file, finished, cut rfl⟩

end Screencast
