import Screencast.Json.Coerce

/-!
The settings: where the tools are, how sounds meet and end, how the picture is sampled, and how
long a rendering may take. Each field says what values it takes.
-/

namespace Screencast

structure Settings where
  ffmpegPath : Option String := none
  ffprobePath : Option String := none
  /-- The least fade, in milliseconds, when one clip takes the place of another. -/
  crossfadeMin : Int := 500
  /-- The time added, in milliseconds, to the wait for a clip that is heard live. -/
  settleMargin : Int := 200
  /-- The fade of a stop, in milliseconds, if none is given. -/
  stopFade : Int := 500
  audioCodec : String := "aac"
  audioBitrate : String := "192k"
  /-- Frames a second. -/
  viewportFps : Int := 30
  /-- Frames from one key frame to the next. -/
  keyframeInterval : Int := 15
  defaultWidth : Int := 1920
  defaultHeight : Int := 1080
  /-- The seconds that a rendering may take; null for any time. -/
  renderTimeout : Json := .int 600

namespace Settings

inductive Fault where
  | notIntegerText
  | integerTooLong
  | fractional
  | notFinite
  | notInteger
  | notNumberText
  | notNumber
  | notText
deriving DecidableEq, Repr

def Fault.name : Fault → String
  | notIntegerText => "int_parsing"
  | integerTooLong => "int_parsing_size"
  | fractional => "int_from_float"
  | notFinite => "finite_number"
  | notInteger => "int_type"
  | notNumberText => "float_parsing"
  | notNumber => "float_type"
  | notText => "string_type"

def isPlain (s : List Char) : Bool := s.all fun c => c.val < 0x80

def noFraction : List Char → Bool
  | [] => true
  | '.' :: rest => rest.all (· == '0')
  | _ => false

/-- A whole number: a sign, digits with single underscores between them, perhaps a fraction of
noughts. -/
def integerOfText (text : String) : Except Fault Int :=
  let cs := Text.stripNumber text.toList
  let (negative, s) := NumberText.sign cs
  match NumberText.digits s with
  | (d :: ds, rest) =>
    if !isPlain cs || !noFraction rest then .error .notIntegerText
    else if 4300 < text.utf8ByteSize then .error .integerTooLong
    else .ok (Exact.signed negative (NumberText.ofDigits (d :: ds)))
  | _ => .error .notIntegerText

/-- A machine number without fraction, within sixty-four bits. -/
def integerOfFloat (x : Float) : Except Fault Int :=
  match Binary.exact x with
  | .ratio negative num den =>
    if num % den ≠ 0 then .error .fractional
    else if twoTo 63 ≤ num / den then .error .integerTooLong
    else .ok (Exact.signed negative (num / den))
  | _ => .error .notFinite

def integer : Json → Except Fault Int
  | .bool b => .ok (if b then 1 else 0)
  | .int n => .ok n
  | .float x => integerOfFloat x
  | .string text => integerOfText text
  | .null | .array _ | .object _ => .error .notInteger

def text : Json → Except Fault String
  | .string s => .ok s
  | _ => .error .notText

def textOrNone : Json → Except Fault (Option String)
  | .null => .ok none
  | value => (text value).map some

def secondsOrNone : Json → Except Fault Json
  | .null => .ok .null
  | .string s =>
    match NumberText.toFloat? s.toList with
    | some x =>
      if isPlain (Text.stripNumber s.toList) then .ok (.float x) else .error .notNumberText
    | none => .error .notNumberText
  | value =>
    match value.toFloat with
    | .ok x => .ok (.float x)
    | .error _ => .error .notNumber

/-- Reads a field if a value is given, and notes the fault of a value that it does not take. -/
def field {β : Type} (given : String → Option Json) (name : String)
    (read : Json → Except Fault β) (default : β) : StateM (List (String × String)) β :=
  match given name with
  | none => pure default
  | some value =>
    match read value with
    | .ok result => pure result
    | .error fault => do
      modify (· ++ [(name, fault.name)])
      pure default

def fields (given : String → Option Json) : StateM (List (String × String)) Settings := do
  let defaults : Settings := {}
  let audioBitrate ← field given "audio_bitrate" text defaults.audioBitrate
  let audioCodec ← field given "audio_codec" text defaults.audioCodec
  let crossfadeMin ← field given "crossfade_min_ms" integer defaults.crossfadeMin
  let defaultHeight ← field given "default_height" integer defaults.defaultHeight
  let stopFade ← field given "default_stop_fade_ms" integer defaults.stopFade
  let defaultWidth ← field given "default_width" integer defaults.defaultWidth
  let ffmpegPath ← field given "ffmpeg_path" textOrNone defaults.ffmpegPath
  let ffprobePath ← field given "ffprobe_path" textOrNone defaults.ffprobePath
  let keyframeInterval ← field given "keyframe_interval" integer defaults.keyframeInterval
  let renderTimeout ← field given "render_timeout" secondsOrNone defaults.renderTimeout
  let settleMargin ← field given "settle_margin_ms" integer defaults.settleMargin
  let viewportFps ← field given "viewport_fps" integer defaults.viewportFps
  pure {
    ffmpegPath, ffprobePath, crossfadeMin, settleMargin, stopFade, audioCodec, audioBitrate
    viewportFps, keyframeInterval, defaultWidth, defaultHeight, renderTimeout }

def ofGiven (given : String → Option Json) : Except Failure Settings :=
  match (fields given).run [] with
  | (settings, []) => .ok settings
  | (_, faults) => .error (.invalidSettings faults)

end Settings

end Screencast
