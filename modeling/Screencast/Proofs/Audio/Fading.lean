import Screencast.Proofs.Audio.Handover

/-!
The fade at the end of a clip. Its length is chosen by whether the stop comes before the natural
end, but its place by whether there is a stop at all. So it ends where the sound ends unless the
stop comes after the natural end: then it stands at the stop, behind the sound.
-/

namespace Screencast

def Filter.fade? {α : Type} : Filter α → Option (α × α)
  | fadeOut start length => some (start, length)
  | _ => none

def Segment.fades {α : Type} (segment : Segment α) : List (α × α) :=
  segment.chain.filterMap Filter.fade?

namespace Heard

/-- When the sound is over: at its natural end or at the stop, whichever comes first. -/
def audibleEnd? (heard : Heard Rat) : Option Rat :=
  Option.merge min (heard.clip.naturalEnd? heard.time) (heard.stop.map (·.1))

/-- How long the sound fades at its end: as the stop says if it comes before the natural end, and
else as the clip does. -/
def fade (heard : Heard Rat) : Rat :=
  match heard.stop with
  | some (stop, fade) =>
    if ∀ natural ∈ heard.clip.naturalEnd? heard.time, stop < natural then fade
    else heard.clip.fadeOut
  | none => heard.clip.fadeOut

def fadeEnd? (heard : Heard Rat) : Option Rat :=
  (heard.stop.map (·.1)).or (heard.clip.naturalEnd? heard.time)

/-- The fade that is over at a time, if the clip has one and it does not begin before the clip. -/
def fadesTo (heard : Heard Rat) (finish? : Option Rat) : List (Rat × Rat) :=
  match finish? with
  | some finish =>
    if 0 < heard.fade ∧ heard.time ≤ finish - heard.fade then [(finish - heard.fade, heard.fade)]
    else []
  | none => []

def StopsInside (heard : Heard Rat) : Prop :=
  ∀ stop ∈ heard.stop, ∀ natural ∈ heard.clip.naturalEnd? heard.time, stop.1 ≤ natural

theorem fadeEnd?_eq_audibleEnd? {heard : Heard Rat} (inside : heard.StopsInside) :
    heard.fadeEnd? = heard.audibleEnd? := by
  unfold fadeEnd? audibleEnd?
  cases stops : heard.stop with
  | none =>
    cases heard.clip.naturalEnd? heard.time with
    | none => rfl
    | some natural => rfl
  | some stop =>
    cases ends : heard.clip.naturalEnd? heard.time with
    | none => rfl
    | some natural =>
      have le : stop.1 ≤ natural := inside stop stops natural ends
      exact congrArg some (min_eq_right le).symm

theorem bounds_of_mem_fadesTo {heard : Heard Rat} {finish? : Option Rat} {start length : Rat}
    (member : (start, length) ∈ heard.fadesTo finish?) :
    heard.time ≤ start ∧ 0 < length ∧ finish? = some (start + length) := by
  unfold fadesTo at member
  split at member
  · next finish =>
    split at member
    · next fits =>
      obtain ⟨rfl, rfl⟩ := Prod.mk.inj (List.mem_singleton.mp member)
      exact ⟨fits.2, fits.1, by rw [sub_add_cancel]⟩
    · cases member
  · cases member

end Heard

namespace Segment

variable (clip : Clip Rat) (time : Rat) (stop : Option (Rat × Rat))

theorem cutsShort_iff (natural? : Option Rat) (stop : Rat × Rat) :
    cutsShort natural? stop = true ↔ ∀ natural ∈ natural?, stop.1 < natural := by
  cases natural? with
  | none => simp [cutsShort]
  | some natural => simp [cutsShort]

theorem fades_putOff (finish fade : Rat) :
    (if 0 < fade ∧ 0 ≤ finish - time - fade then
        some (Filter.fadeOut (time + (finish - time - fade)) fade) else none).toList.filterMap
      Filter.fade? =
      if 0 < fade ∧ time ≤ finish - fade then [(finish - fade, fade)] else [] := by
  have fits : 0 ≤ finish - time - fade ↔ time ≤ finish - fade := by
    constructor <;> intro le <;> linarith
  have start : time + (finish - time - fade) = finish - fade := by ring
  simp only [fits, start]
  split <;> rfl

theorem fades_fadeOut? (file : Path) :
    (fadeOut? clip time stop).toList.filterMap Filter.fade? =
      Heard.fadesTo ⟨file, clip, time, stop⟩ (Heard.fadeEnd? ⟨file, clip, time, stop⟩) := by
  cases stop with
  | none =>
    have natural : Heard.fadeEnd? ⟨file, clip, time, none⟩ = clip.naturalEnd? time := rfl
    unfold fadeOut?
    rw [natural]
    cases clip.naturalEnd? time with
    | none => rfl
    | some finish => exact fades_putOff time finish clip.fadeOut
  | some stop =>
    obtain ⟨finish, own⟩ := stop
    by_cases early : cutsShort (clip.naturalEnd? time) (finish, own) = true
    · have cut : cut? clip time (some (finish, own)) = some (finish, own) := by
        rw [cut?, Option.filter_some, if_pos early]
      have fade : Heard.fade ⟨file, clip, time, some (finish, own)⟩ = own :=
        if_pos ((cutsShort_iff _ _).mp early)
      unfold fadeOut? Heard.fadesTo
      rw [cut, fade]
      exact fades_putOff time finish own
    · have uncut : cut? clip time (some (finish, own)) = none := by
        rw [cut?, Option.filter_some, if_neg early]
      have fade : Heard.fade ⟨file, clip, time, some (finish, own)⟩ = clip.fadeOut :=
        if_neg (mt (cutsShort_iff _ _).mpr early)
      unfold fadeOut? Heard.fadesTo
      rw [uncut, fade]
      exact fades_putOff time finish clip.fadeOut

/-- A chain has no other fade to silence than the one at the end of its clip. -/
theorem fades_chainOf (file : Path) (channel : Channel Rat) (curve : Option (Curve Rat)) :
    (chainOf clip time stop channel curve).filterMap Filter.fade? =
      Heard.fadesTo ⟨file, clip, time, stop⟩ (Heard.fadeEnd? ⟨file, clip, time, stop⟩) := by
  have skip : (if 0 < clip.offset then [Filter.skip clip.offset] else []).filterMap
      Filter.fade? = [] := by
    split <;> rfl
  have loop : (if clip.loop then [Filter.loop] else ([] : List (Filter Rat))).filterMap
      Filter.fade? = [] := by
    split <;> rfl
  have delay : [Filter.delay time].filterMap Filter.fade? = [] := rfl
  have fadeIn : (if 0 < clip.fadeIn then [Filter.fadeIn time clip.fadeIn] else []).filterMap
      Filter.fade? = [] := by
    split <;> rfl
  have cut : ((cut? clip time stop).map fun (finish, _) =>
      Filter.cut finish).toList.filterMap Filter.fade? = [] := by
    cases cut? clip time stop <;> rfl
  have volume : (volumeFilters clip channel curve).filterMap Filter.fade? = [] :=
    filterMap_volumeFilters (fun _ => rfl) (fun _ => rfl) clip channel curve
  unfold chainOf
  simp only [List.filterMap_append, skip, loop, delay, fadeIn, cut, volume,
    fades_fadeOut? clip time stop file, List.nil_append, List.append_nil]

end Segment

def Event.heard {α : Type} [Number α] (event : Event α) (file : Path) (clip : Clip α)
    (later : List (Event α)) : Heard α :=
  ⟨file, clip, event.time,
    (later.filter (·.channel == event.channel)).findSome? (Event.stopsFrom event.time)⟩

/-- The fade of a play. It ends at the first stop of its channel from the play on, or at the natural
end if there is none, and the chain has it exactly when the clip fades at all and does not begin
later than the fade. As long as the stop does not come after the natural end, this is where the
sound ends, and the fade lies inside it. -/
theorem Part.fades_of_play {events before later : List (Event Rat)} {event : Event Rat}
    (channels : Channels Rat) (initial : Table Int Rat) (split : events = before ++ event :: later)
    (mixed : (channels.get event.channel).output.isMixed = true) {file : Path} {clip : Clip Rat}
    (sound : event.sound? = some (file, clip)) :
    let heard := event.heard file clip later
    ∃ segment, ((segments (ofTimeline events channels initial)).filter
        (·.channel == event.channel))[Event.soundsOn event.channel before]? = some segment ∧
      segment.index = Event.soundsOn event.channel before ∧ segment.file = file ∧
      segment.fades = heard.fadesTo heard.fadeEnd? ∧
      (heard.StopsInside → segment.fades = heard.fadesTo heard.audibleEnd? ∧
        ∀ fade ∈ segment.fades, event.time ≤ fade.1 ∧ 0 < fade.2 ∧
          heard.audibleEnd? = some (fade.1 + fade.2)) := by
  intro heard
  obtain ⟨curve, placed⟩ := segment_of_play channels initial split mixed sound
  have fades : (heard.toSegment (channels.get event.channel) event.channel curve
      (Event.soundsOn event.channel before)).fades = heard.fadesTo heard.fadeEnd? :=
    Segment.fades_chainOf clip event.time heard.stop file _ curve
  refine ⟨_, placed, rfl, rfl, fades, fun inside => ?_⟩
  have same := Heard.fadeEnd?_eq_audibleEnd? inside
  refine ⟨fades.trans (by rw [same]), fun fade member => ?_⟩
  have fadesInside : fade ∈ heard.fadesTo heard.audibleEnd? := by
    rw [← same, ← fades]
    exact member
  exact Heard.bounds_of_mem_fadesTo fadesInside

/-- Two clips that follow one another: the first fades as the stop between them says. -/
theorem Part.fades_of_play_crossfading :
    let file : Path := ⟨.root, ["music.mp3"]⟩
    let clip : Clip Rat := ⟨some file, 0, 1000, false, none, 6000, 500⟩
    let before : List (Event Rat) := [⟨3, 0, .play clip⟩, ⟨2, 0, .play clip⟩, ⟨2, 900, .stop 250⟩]
    let later : List (Event Rat) :=
      [⟨3, 2000, .stop 100⟩, ⟨2, 4000, .stop 700⟩, ⟨2, 4000, .play clip⟩, ⟨2, 6000, .stop 300⟩]
    let play : Event Rat := ⟨2, 1000, .play clip⟩
    ∃ segment, ((segments (ofTimeline (before ++ play :: later) [] [])).filter
        (·.channel == 2))[1]? = some segment ∧
      segment.fades = [(3300, 700)] ∧ (play.heard file clip later).audibleEnd? = some 4000 := by
  intro file clip before later play
  have split : before ++ play :: later = before ++ play :: later := rfl
  obtain ⟨segment, placed, _, _, _, whenInside⟩ := fades_of_play [] [] split rfl rfl
  have stops : (play.heard file clip later).stop = some (4000, 700) := by
    cbv
  have ends : clip.naturalEnd? 1000 = some 6500 := by
    cbv
  have inside : (play.heard file clip later).StopsInside := by
    intro stop isStop natural isNatural
    obtain rfl := Option.some_inj.mp (stops.symm.trans isStop)
    obtain rfl := Option.some_inj.mp (ends.symm.trans isNatural)
    norm_num
  have fades : (play.heard file clip later).fadesTo (some 4000) = [(3300, 700)] := by
    cbv
  have audible : (play.heard file clip later).audibleEnd? = some 4000 := by
    cbv
  exact ⟨segment, placed, (whenInside inside).1.trans (audible ▸ fades), audible⟩

/-- A clip of five seconds that is stopped after eight fades in the eighth, when it is over. -/
theorem Part.fades_behind_sound :
    let file : Path := ⟨.root, ["music.mp3"]⟩
    let clip : Clip Rat := ⟨some file, 0, 1000, false, none, 5000, 0⟩
    let play : Event Rat := ⟨2, 0, .play clip⟩
    let stop : Event Rat := ⟨2, 8000, .stop 500⟩
    let heard := play.heard file clip [stop]
    heard.audibleEnd? = some 5000 ∧ heard.fadesTo heard.audibleEnd? = [(4000, 1000)] ∧
      ∃ segment, segments (ofTimeline [play, stop] [] []) = [segment] ∧
        segment.fades = [(7000, 1000)] ∧
        segment.chainText = .ok "adelay=0|0,afade=t=out:st=7:d=1" := by
  exact ⟨by cbv, by cbv, _, rfl, by cbv, by cbv⟩

end Screencast
