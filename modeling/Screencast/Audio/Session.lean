import Screencast.Audio.Mix

/-!
The session: what a recording has seen and heard so far. Whatever happens on a channel is added to
the timeline; of each channel the session knows what is playing on it. Every step takes the time at
which it happens, in milliseconds from the start of the recording.
-/

namespace Screencast

structure Playing (α : Type) where
  file : Path
  start : α
  length : α
  fadeIn : α
  fadeOut : α
  loop : Bool
  volume : α

structure Cue (α : Type) where
  file : Path
  length : α
  fadeIn : α
  fadeOut : α
  offset : α
  loop : Bool

structure Session (α : Type) where
  /-- Where the paths of media files start. -/
  base : Path := ⟨.here, []⟩
  channels : Channels α
  /-- The volumes that the channels had before anything was recorded. -/
  volumes : Table Int α := []
  active : Table Int (Playing α) := []
  timeline : List (Event α) := []
  /-- The reading of the clock at the start of the recording. -/
  start : Option α := none

variable {α : Type} [Number α]

def Cue.toClip (cue : Cue α) : Clip α :=
  ⟨some cue.file, cue.fadeIn, cue.fadeOut, cue.loop, none, cue.length, cue.offset⟩

def Cue.toPlaying (cue : Cue α) (time volume : α) : Playing α :=
  ⟨cue.file, time, cue.length, cue.fadeIn, cue.fadeOut, cue.loop, volume⟩

namespace Session

def new : Session α :=
  { channels := [(Channel.narrationId, .default Channel.narrationId)] }

def channel (session : Session α) (id : Int) : Channel α :=
  session.channels.get id

/-- The time since the start of the recording; before it there is none. -/
def timeAt (session : Session α) (clock : α) : α :=
  match session.start with
  | none => 0
  | some start => (clock - start) * 1000

def begin (session : Session α) (clock : α) : Session α :=
  { session with start := some clock }

def record (session : Session α) (events : List (Event α)) : Session α :=
  { session with timeline := session.timeline ++ events }

def crossfade (least : α) (cue : Cue α) (before : Playing α) : α :=
  Number.larger (Number.larger cue.fadeIn before.fadeOut) least

def giveWay (session : Session α) (least time : α) (id : Int) (cue : Cue α) : List (Event α) :=
  match session.active.find? id with
  | some before => [⟨id, time, .stop (crossfade least cue before)⟩]
  | none => []

/-- Plays a cue. What was playing on the channel is stopped with a fade, not shorter than the
least. -/
def play (session : Session α) (least time : α) (id : Int) (cue : Cue α) : Session α :=
  let volume := (session.channel id).volume
  { session.record (session.giveWay least time id cue ++ [⟨id, time, .play cue.toClip⟩]) with
    active := session.active.put id (cue.toPlaying time volume) }

def stopTargets (session : Session α) (id : Option Int) : List Int :=
  match id with
  | some id => [id]
  | none => session.active.keys

def stopOne (time fadeOut : α) (session : Session α) (id : Int) : Session α :=
  { session.record [⟨id, time, .stop fadeOut⟩] with active := session.active.erase id }

def stop (session : Session α) (time fadeOut : α) (targets : List Int) : Session α :=
  targets.foldl (stopOne time fadeOut) session

def bounded (volume : α) : α :=
  Number.smaller 1 (Number.larger 0 volume)

/-- The volume before the first change is kept. -/
def keepVolume (session : Session α) (id : Int) : Table Int α :=
  match session.volumes.find? id with
  | some _ => session.volumes
  | none => session.volumes.put id (session.channel id).volume

def setVolume (session : Session α) (time : α) (id : Int) (volume ramp : α) : Session α :=
  let volume := bounded volume
  let event : Event α :=
    ⟨id, time, .volume (some (.amount volume)) (Number.larger 0 ramp)⟩
  { session.record [event] with
    volumes := session.keepVolume id
    channels := session.channels.put id { session.channel id with volume }
    active := match session.active.find? id with
      | some playing => session.active.put id { playing with volume }
      | none => session.active }

def restored (session : Session α) : Channels α :=
  session.volumes.foldl
    (fun channels (id, volume) => channels.put id { Channels.get channels id with volume })
    session.channels

def reset (session : Session α) : Session α :=
  { session with timeline := [], active := [], start := none, channels := session.restored }

def mix (session : Session α) (video : Path) (videoLength : Option α) :
    List Path × Except Failure Mix :=
  Mix.ofTimeline video session.timeline session.channels videoLength session.volumes

end Session

end Screencast
