import Screencast.Proofs.Audio.Settling
import Screencast.Proofs.Audio.Silence
import Screencast.Proofs.Audio.Strand

/-!
Whether a mix comes to an end. It ends with the video if the length of that is known. If it is not,
a clip that loops goes on until a stop of its channel cuts it off, and without one the mix is
endless.
-/

namespace Screencast

open Number Text

variable {α : Type} [Number α]

namespace Segment

theorem loop_mem_chainOf {clip : Clip α} {time : α} {stop : Option (α × α)} {channel : Channel α}
    {curve : Option (Curve α)} :
    .loop ∈ chainOf clip time stop channel curve ↔ clip.loop = true := by
  have fade : fadeOut? clip time stop ≠ some .loop := fun made => by
    obtain ⟨_, _, other⟩ := eq_fadeOut made
    cases other
  have volume : .loop ∉ volumeFilters clip channel curve := fun member => by
    obtain ⟨_, other⟩ | ⟨_, _, other⟩ := volume_or_automation member <;> cases other
  simp [chainOf, fade, volume]

end Segment

omit [Number α] in
theorem Event.playing_filter (id : Int) (events : List (Event α)) :
    Event.playing id (events.filter (·.channel == id)) = Event.playing id events := by
  unfold Event.playing
  rw [List.foldl_filter]
  congr 1
  funext on event
  unfold Event.holds
  by_cases same : event.channel = id <;> simp [same]

namespace Session

/-- Whether each clip that is heard to loop on a channel is stopped there, at its time or later. -/
def LoopsStopped (session : Session α) (id : Int) : Prop :=
  ∀ before play later file clip, session.eventsOn id = before ++ play :: later →
    play.sound? = some (file, clip) → clip.loop = true →
      ∃ stop ∈ later, play.time ≤ stop.time ∧ ∃ fadeOut, stop.action = .stop fadeOut

def LoopsCut (session : Session α) : Prop :=
  ∀ segment ∈ session.segments, .loop ∈ segment.chain → segment.cutTime?.isSome = true

theorem exists_segment {session : Session α} {id : Int}
    (mixed : (session.channel id).output.isMixed = true) {heard : Heard α}
    (inHeard : heard ∈ Heard.ofEvents (session.eventsOn id)) :
    ∃ curve index, heard.toSegment (session.channel id) id curve index ∈ session.segments := by
  obtain ⟨index, placed⟩ := List.mem_iff_getElem?.mp inHeard
  let curve := Automation.ofEvents ((session.volumes.find? id).getD (session.channel id).volume)
    (session.eventsOn id)
  have onChannel : heard.toSegment (session.channel id) id curve index ∈
      Part.segmentsOn session.channels session.volumes id (session.eventsOn id) :=
    Part.mem_segmentsOn_iff.mpr
      ⟨mixed, heard, index, List.mk_mem_zipIdx_iff_getElem?.mpr placed, rfl⟩
  exact ⟨curve, index, Part.mem_segments_iff.mpr onChannel⟩

/-- The segments that loop are cut off if the clips are stopped, on each channel that is mixed. -/
theorem loopsCut_iff {session : Session α} : session.LoopsCut ↔
    ∀ id, (session.channel id).output.isMixed = true → session.LoopsStopped id := by
  constructor
  · intro cut id mixed before play later file clip split sound loops
    have inHeard := List.mem_of_getElem? (Heard.ofEvents_append before later sound)
    rw [← split] at inHeard
    obtain ⟨curve, index, member⟩ := exists_segment mixed inHeard
    have isCut := cut _ member (Segment.loop_mem_chainOf.mpr loops)
    change ((Segment.chainOf clip _ _ _ curve).findSome? Filter.cutTime?).isSome = true at isCut
    rw [Segment.cutTime?_of_loop loops, Option.isSome_map] at isCut
    exact Event.isSome_findSome?_stopsFrom.mp isCut
  · intro stopped segment member loops
    obtain ⟨mixed, heard, index, inHeard, same⟩ :=
      Part.mem_segmentsOn_iff.mp (Part.mem_segments_iff.mp member)
    obtain ⟨before, play, later, split, sound, time, stop⟩ :=
      Heard.exists_split (List.fst_mem_of_mem_zipIdx inHeard)
    rw [same] at loops
    have clipLoops : heard.clip.loop = true := Segment.loop_mem_chainOf.mp loops
    have found := Event.isSome_findSome?_stopsFrom.mpr
      (stopped segment.channel mixed before play later heard.file heard.clip split sound clipLoops)
    rw [same, Segment.cutTime?]
    change ((Segment.chainOf heard.clip _ _ _ _).findSome? Filter.cutTime?).isSome = true
    rw [Segment.cutTime?_of_loop clipLoops, Option.isSome_map, stop]
    exact found

theorem InTurn.loopsStopped {session : Session α} {time : α} (turn : session.InTurn time) {id : Int}
    (silent : session.active.find? id = none) : session.LoopsStopped id := by
  intro before play later file clip split sound _
  have ordered := turn.ordered.sublist (List.filter_sublist (p := (·.channel == id)))
  change (session.eventsOn id).Pairwise _ at ordered
  rw [split] at ordered
  have since := (List.pairwise_cons.mp (List.pairwise_append.mp ordered).2.1).1
  have onChannel : play.channel = id := by
    have member : play ∈ session.eventsOn id := by simp [split]
    simpa using (List.mem_filter.mp member).2
  by_contra unstopped
  have started : Event.holds id (Event.playing id before) play = true := by
    rw [Event.holds, if_pos onChannel, Event.action_of_sound sound]
  have still : Event.playing id session.timeline = true := by
    rw [← Event.playing_filter]
    change Event.playing id (session.eventsOn id) = true
    unfold Event.playing at started ⊢
    rw [split, List.foldl_append, List.foldl_cons, started]
    exact Event.foldl_holds fun event member _ fadeOut stops =>
      unstopped ⟨event, member, since event member, fadeOut, stops⟩
  have active := turn.active id still
  rw [silent] at active
  cases active

end Session

namespace Mix

def EndsWithVideo (mix : Mix) (seconds : α) : Prop :=
  ∃ labels count, (Link.readGraph mix.graph).getLast? = some (some ⟨labels,
    "amix=inputs=" ++ toString (count : Nat) ++ ":duration=longest:dropout_transition=2" ++
      (",atrim=0:" ++ secondsText (seconds * 1000) ++ ",asetpts=PTS-STARTPTS"), ["aout"]⟩)

theorem exists_last {video : Path} {events : List (Event α)} {channels : Channels α}
    {videoLength : Option α} {initial : Table Int α} {mix : Mix}
    (made : (ofTimeline video events channels videoLength initial).2 = .ok mix)
    (audible : mix.hasAudio = true) :
    ∃ labels count, (Link.readGraph mix.graph).getLast? =
      some (some ⟨labels, mixerBody count videoLength, ["aout"]⟩) := by
  obtain ⟨written, rfl, _, _, plain⟩ := exists_ofSegments made
  have some_segment : written ≠ [] := by
    rintro rfl
    cases audible
  refine ⟨written.map (·.1.label), written.length, ?_⟩
  rw [readGraph_ofSegments video some_segment plain, links, List.map_append, List.map_singleton,
    List.getLast?_concat]

theorem comma_notMem_mixerBody {seconds : α} (unknown : ¬ 0 < seconds) (count : Nat) :
    ',' ∉ (mixerBody count (some seconds)).toList := by
  have digits : ',' ∉ Nat.toDigits 10 count := fun member =>
    absurd (isDigit_of_mem_toDigits member) (by decide)
  have none : bound (some seconds) = "" := if_neg unknown
  rw [mixerBody, none]
  simp [digits]

theorem endsWithVideo_iff {mix : Mix} {seconds : α} {labels : List String} {count : Nat}
    (last : (Link.readGraph mix.graph).getLast? =
      some (some ⟨labels, mixerBody count (some seconds), ["aout"]⟩)) :
    mix.EndsWithVideo seconds ↔ 0 < seconds := by
  constructor
  · rintro ⟨_, other, isLast⟩
    by_contra unknown
    have body := congrArg Link.body (Option.some.inj (Option.some.inj (last.symm.trans isLast)))
    dsimp only at body
    refine comma_notMem_mixerBody unknown count ?_
    rw [body]
    simp
  · intro known
    refine ⟨labels, count, last.trans ?_⟩
    rw [mixerBody, show bound (some seconds) = _ from if_pos known]

end Mix

namespace Studio

omit [Number α] in
theorem result_forM_warn (logger : String) (text : Path → String) (files : List Path)
    (studio : Studio α) :
    (files.forM fun file => warn logger (text file) : Work α Unit).result studio = .ok () := by
  induction files generalizing studio with
  | nil => rfl
  | cons file rest ih =>
    change (warn logger (text file) >>= fun _ => rest.forM _).result studio = .ok ()
    rw [Work.result_bind]
    exact ih _

theorem result_compile (video : Path) (videoLength : Option α) (studio : Studio α) :
    (compile video videoLength).result studio = (studio.session.mix video videoLength).2 := by
  unfold compile
  rw [Work.result_get_bind]
  dsimp only
  rw [Work.result_bind, result_forM_warn]
  rfl

end Studio

/-- Whether what is heard of a session comes to an end: with the video, or else since all that loops
is cut off. -/
def Session.Ends (session : Session α) (mix : Mix) (videoLength : Option α) : Prop :=
  (∃ seconds, videoLength = some seconds ∧ mix.EndsWithVideo seconds) ∨ session.LoopsCut

/-- A mix with sound ends with the video if the length of that is known. If it is not, the mix ends
if and only if each clip that is heard to loop on a channel was stopped there; in a session recorded
without declared clips this is so on every channel that plays no more. -/
theorem Studio.mix_ends_iff [LawfulNumber α] {studio : Studio α} {video : Path}
    {videoLength : Option α} {mix : Mix}
    (made : (compile video videoLength).result studio = .ok mix) (audible : mix.hasAudio = true) :
    mix.strands.map .ok = studio.session.segments.map Segment.strand? ∧
      (studio.session.Ends mix videoLength ↔
        (∃ seconds, videoLength = some seconds ∧ 0 < seconds) ∨
          ∀ id, (studio.session.channel id).output.isMixed = true →
            studio.session.LoopsStopped id) ∧
      ∀ (blank : Studio α) (moves : List (α × Move α)),
        studio.session = (blank.run moves).session → blank.session.timeline = [] →
        blank.session.start = none → (∀ move ∈ moves, isFinite move.1 = true) →
        (moves.map (·.1)).Pairwise (· ≤ ·) → moves.countP (·.2.isBegin) ≤ 1 →
          ∀ id, studio.session.active.find? id = none → studio.session.LoopsStopped id := by
  rw [result_compile] at made
  obtain ⟨labels, count, last⟩ := Mix.exists_last made audible
  refine ⟨Mix.strands_ofTimeline made, or_congr ?_ Session.loopsCut_iff, ?_⟩
  · refine exists_congr fun seconds => and_congr_right ?_
    rintro rfl
    exact Mix.endsWithVideo_iff last
  · intro blank moves recorded undeclared unbegun finite forward once id silent
    obtain ⟨time, turn⟩ := run_inTurn_of_new undeclared unbegun finite forward once
    rw [← recorded] at turn
    exact turn.loopsStopped silent

/-- Music that loops and is stopped, under a video of which nothing is known. -/
theorem Studio.mix_ends_stopped :
    let studio : Studio Rat :=
      { settings := {}, host := { known := [("/music.mp3", ⟨10000, none, none⟩)] },
        session := Session.new, clock := 0 }
    let music : Move Rat := .play { file := "/music.mp3", channel := 2, wait := false, fadeIn := 0,
                                    fadeOut := 0, loop := true }
    let final := studio.run [(5, .begin), (6, music), (9, .stop none none)]
    let video : Path := ⟨.root, ["v.mp4"]⟩
    (Media.duration final.settings video final.host).1 = .ok 0 ∧
      ∃ mix, (compile video (some (0 / 1000))).result final = .ok mix ∧ mix.hasAudio = true ∧
        final.session.Ends mix (some (0 / 1000)) := by
  intro studio music final video
  let mix : Mix := ⟨[video, ⟨.root, ["music.mp3"]⟩],
    "[1:a]aloop=loop=-1:size=2e+09,adelay=1000|1000,afade=t=out:st=3.5:d=0.5,atrim=end=4" ++
      "[ch2_0];[ch2_0]amix=inputs=1:duration=longest:dropout_transition=2[aout]", true, "aout"⟩
  have made : (compile video (some (0 / 1000))).result final = .ok mix := by decide +kernel
  have silent :
      (studio.run [(5, .begin), (6, music), (9, .stop none none)]).session.active = [] := by
    cbv
  have forward : ([5, 6, 9] : List Rat).Pairwise (· ≤ ·) := by decide
  obtain ⟨_, ends, stopped⟩ := mix_ends_iff made rfl
  refine ⟨by decide +kernel, mix, made, rfl, ends.mpr (.inr fun id _ => ?_)⟩
  have notActive : final.session.active.find? id = none :=
    (congrArg (Table.find? id) silent).trans rfl
  exact stopped studio _ rfl rfl rfl (fun _ _ => rfl) forward (by decide) id notActive

/-- Without the stop the mix is endless. -/
theorem Studio.endless_of_unknown_length :
    let studio : Studio Rat :=
      { settings := {}, host := { known := [("/music.mp3", ⟨10000, none, none⟩)] },
        session := Session.new, clock := 0 }
    let music : Move Rat := .play { file := "/music.mp3", channel := 2, wait := false, fadeIn := 0,
                                    fadeOut := 0, loop := true }
    let final := studio.run [(5, .begin), (6, music)]
    let video : Path := ⟨.root, ["v.mp4"]⟩
    (Media.duration final.settings video final.host).1 = .ok 0 ∧
      ∃ mix, (compile video (some (0 / 1000))).result final = .ok mix ∧ mix.hasAudio = true ∧
        ¬ final.session.Ends mix (some (0 / 1000)) := by
  intro studio music final video
  let mix : Mix := ⟨[video, ⟨.root, ["music.mp3"]⟩],
    "[1:a]aloop=loop=-1:size=2e+09,adelay=1000|1000[ch2_0];" ++
      "[ch2_0]amix=inputs=1:duration=longest:dropout_transition=2[aout]", true, "aout"⟩
  have made : (compile video (some (0 / 1000))).result final = .ok mix := by decide +kernel
  refine ⟨by decide +kernel, mix, made, rfl, ?_⟩
  rintro (⟨seconds, known, withVideo⟩ | cut)
  · obtain rfl := Option.some.inj known
    rw [result_compile] at made
    obtain ⟨labels, count, last⟩ := Mix.exists_last made rfl
    exact absurd ((Mix.endsWithVideo_iff last).mp withVideo) (by decide +kernel)
  · let clip : Clip Rat := ⟨some ⟨.root, ["music.mp3"]⟩, 0, 0, true, none, 10000, 0⟩
    have events : (studio.run [(5, .begin), (6, music)]).session.eventsOn 2 =
        [] ++ ⟨2, 1000, .play clip⟩ :: [] := by
      cbv
    obtain ⟨_, member, _⟩ := Session.loopsCut_iff.mp cut 2 (by decide +kernel) _ _ _ _ clip events
      rfl rfl
    cases member

end Screencast
