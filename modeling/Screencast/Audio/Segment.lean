import Screencast.Audio.Automation
import Screencast.Audio.Channel

/-!
Segments: what becomes of each clip in the mix. A segment is a chain of filters whose times are
those of the recording, since the delay has shifted the sound to where it is heard.
-/

namespace Screencast

/-- A number of milliseconds as seconds, three places at most. -/
def secondsText {α : Type} [Number α] (ms : α) : String :=
  (Number.toPlaces 3 (ms / 1000)).trim.toText

def volumeText {α : Type} [Number α] (volume : α) : String :=
  (Number.toPlaces 3 volume).trim.toText

/-- One step of a chain; all times are in milliseconds. -/
inductive Filter (α : Type) where
  | skip (offset : α)
  | loop
  | delay (time : α)
  | fadeIn (time length : α)
  | fadeOut (start length : α)
  | cut (time : α)
  | volume (level : Loudness α)
  | automation (curve : Curve α)

structure Segment (α : Type) where
  channel : Int
  /-- Which of its channel's segments it is. -/
  index : Nat
  file : Path
  chain : List (Filter α)

variable {α : Type} [Number α]

namespace Filter

def delayOf (time : α) : Except Failure Int :=
  (Number.exact time).round.map (max 0)

def toText : Filter α → Except Failure String
  | skip offset => .ok ("atrim=start=" ++ secondsText offset ++ ",asetpts=PTS-STARTPTS")
  | loop => .ok "aloop=loop=-1:size=2e+09"
  | delay time => do
    let ms := toString (← delayOf time)
    pure ("adelay=" ++ ms ++ "|" ++ ms)
  | fadeIn time length => do
    let ms ← delayOf time
    pure ("afade=t=in:st=" ++ secondsText (Number.ofInt ms : α) ++ ":d=" ++ secondsText length)
  | fadeOut start length =>
    .ok ("afade=t=out:st=" ++ secondsText start ++ ":d=" ++ secondsText length)
  | cut time => .ok ("atrim=end=" ++ secondsText time)
  | volume level => do
    let amount ← level.toAmount
    pure ("volume=" ++ volumeText amount)
  | automation curve => do
    let text ← curve.render escapedComma
    pure ("volume=volume='" ++ text ++ "':eval=frame")

end Filter

namespace Segment

/-- The filters that set the volume: the clip's own comes first, then the channel's automation, then
the channel's level. -/
def volumeFilters (clip : Clip α) (channel : Channel α) (curve : Option (Curve α)) :
    List (Filter α) :=
  match clip.volume, curve with
  | some level, _ => if level.isFull then [] else [.volume level]
  | none, some curve => [.automation curve]
  | none, none => if channel.volume == 1 then [] else [.volume (.amount channel.volume)]

def cutsShort (naturalEnd : Option α) (stop : α × α) : Bool :=
  match naturalEnd with
  | none => true
  | some finish => decide (stop.1 < finish)

def cut? (clip : Clip α) (time : α) (stop : Option (α × α)) : Option (α × α) :=
  stop.filter (cutsShort (clip.naturalEnd? time))

/-- The fade at the end of a clip: it ends at the stop if there is one and else at the natural end.
A fade that would begin before the clip is left out. -/
def fadeOut? (clip : Clip α) (time : α) (stop : Option (α × α)) : Option (Filter α) :=
  let fade := match cut? clip time stop with
    | some (_, fade) => fade
    | none => clip.fadeOut
  let finish := match stop with
    | some (finish, _) => some finish
    | none => clip.naturalEnd? time
  match finish with
  | some finish =>
    let start := finish - time - fade
    if 0 < fade ∧ 0 ≤ start then some (.fadeOut (time + start) fade) else none
  | none => none

def chainOf (clip : Clip α) (time : α) (stop : Option (α × α)) (channel : Channel α)
    (curve : Option (Curve α)) : List (Filter α) :=
  (if 0 < clip.offset then [.skip clip.offset] else []) ++
    (if clip.loop then [.loop] else []) ++
    [.delay time] ++
    (if 0 < clip.fadeIn then [.fadeIn time clip.fadeIn] else []) ++
    (fadeOut? clip time stop).toList ++
    ((cut? clip time stop).map fun (finish, _) => .cut finish).toList ++
    volumeFilters clip channel curve

def chainText (segment : Segment α) : Except Failure String :=
  (segment.chain.mapM Filter.toText).map (String.intercalate ",")

def label (segment : Segment α) : String :=
  "ch" ++ toString segment.channel ++ "_" ++ toString segment.index

end Segment

end Screencast
