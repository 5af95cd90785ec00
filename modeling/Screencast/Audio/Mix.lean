import Screencast.Audio.Segment

/-!
The mix: one filter graph for the sound of all channels. Input nought is the video; each clip that
is to be heard is an input of its own with its chain, and one mixer joins them all.
-/

namespace Screencast

/-- What becomes of a clip: a segment, or nothing, for want of a length. -/
inductive Part (α : Type) where
  | segment (segment : Segment α)
  | silent (file : Path)

structure Mix where
  inputs : List Path
  graph : String
  hasAudio : Bool
  label : String
deriving DecidableEq, Repr

variable {α : Type} [Number α]

namespace Part

/-- The parts of one channel's events, the first segment among them being number `index`. -/
def ofEvents (channel : Channel α) (id : Int) (curve : Option (Curve α)) (index : Nat) :
    List (Event α) → List (Part α)
  | [] => []
  | event :: later =>
    match event.action with
    | .play clip =>
      match clip.file with
      | none => ofEvents channel id curve index later
      | some file =>
        if clip.length ≤ 0 then silent file :: ofEvents channel id curve index later
        else
          let stop := later.findSome? (Event.stopsFrom event.time)
          let chain := Segment.chainOf clip event.time stop channel curve
          segment ⟨id, index, file, chain⟩ :: ofEvents channel id curve (index + 1) later
    | _ => ofEvents channel id curve index later

/-- The parts of one channel; a channel that is in the recording already has none. -/
def ofChannel (channels : Channels α) (initial : Table Int α) (id : Int)
    (events : List (Event α)) : List (Part α) :=
  let channel := channels.get id
  if channel.output.isMixed then
    let volume := (initial.find? id).getD channel.volume
    ofEvents channel id (Automation.ofEvents volume events) 0 events
  else []

def ofTimeline (events : List (Event α)) (channels : Channels α) (initial : Table Int α) :
    List (Part α) :=
  ((events.map (·.channel)).eraseDups).flatMap fun id =>
    ofChannel channels initial id (events.filter (·.channel == id))

end Part

namespace Mix

/-- The files left out before the chain of a segment could not be written, and the segments with
their texts. -/
def write : List (Part α) → List Path × Except Failure (List (Segment α × String))
  | [] => ([], .ok [])
  | .silent file :: rest =>
    let (left, segments) := write rest
    (file :: left, segments)
  | .segment s :: rest =>
    match s.chainText with
    | .error failure => ([], .error failure)
    | .ok text =>
      let (left, segments) := write rest
      (left, segments.map ((s, text) :: ·))

def inputFilter (segment : Segment α × String) (input : Nat) : String :=
  "[" ++ toString input ++ ":a]" ++ segment.2 ++ "[" ++ segment.1.label ++ "]"

def mixer (segments : List (Segment α)) (videoLength : Option α) : String :=
  let labels := segments.map fun s => "[" ++ s.label ++ "]"
  let bound := match videoLength with
    | some seconds =>
      if 0 < seconds then ",atrim=0:" ++ secondsText (seconds * 1000) ++ ",asetpts=PTS-STARTPTS"
      else ""
    | none => ""
  String.join labels ++ "amix=inputs=" ++ toString segments.length ++
    ":duration=longest:dropout_transition=2" ++ bound ++ "[aout]"

def ofSegments (video : Path) (segments : List (Segment α × String)) (videoLength : Option α) :
    Mix :=
  match segments with
  | [] => ⟨[video], "", false, "aout"⟩
  | _ =>
    let filters := segments.zipIdx.map fun (segment, index) => inputFilter segment (index + 1)
    let plain := segments.map (·.1)
    ⟨video :: plain.map (·.file),
      String.intercalate ";" (filters ++ [mixer plain videoLength]), true, "aout"⟩

def ofTimeline (video : Path) (events : List (Event α)) (channels : Channels α)
    (videoLength : Option α) (initial : Table Int α) : List Path × Except Failure Mix :=
  let (left, segments) := write (Part.ofTimeline events channels initial)
  (left, segments.map fun s => ofSegments video s videoLength)

end Mix

end Screencast
