import Screencast.Audio.Config
import Screencast.Media.Probe
import Screencast.Render.Command
import Screencast.Render.Runner
import Screencast.Render.Viewport

/-!
The studio: a session on its host, with a clock, a way to wait, and perhaps a live sink, through
which the channels that are live are heard while the picture is recorded.
-/

namespace Screencast

/-- A live sink: what it will answer when it plays, and what it has been told. -/
structure Sink where
  answers : List Json
  played : List Path := []
  stops : Nat := 0

structure Studio (α : Type) where
  settings : Settings
  host : Host α
  session : Session α
  sink : Option Sink := none
  /-- The reading of the clock, in seconds. -/
  clock : α
  /-- The waits so far, in seconds. -/
  waits : List α := []
  /-- Whether the clock goes on while one waits. -/
  waitsTakeTime : Bool := false

abbrev Work (α : Type) := ExceptT Failure (StateM (Studio α))

def Work.ofExcept {α β : Type} (result : Except Failure β) : Work α β :=
  ExceptT.mk (pure result)

namespace Studio

variable {α : Type} [Number α]

def logger : String := "AudioTimelineManager"
def mixLogger : String := "AudioGraphBuilder"

def onHost {β : Type} (job : Job α β) : Work α β := fun studio =>
  let (result, host) := job studio.host
  (result, { studio with host })

def change (f : Session α → Session α) : Work α Unit :=
  modify fun studio => { studio with session := f studio.session }

def warn (logger : String) (text : String) : Work α Unit :=
  onHost (Job.ofAct (Host.log .warning logger [.text text]))

def now (studio : Studio α) : α :=
  studio.session.timeAt studio.clock

def wait (seconds : α) : Work α Unit :=
  modify fun studio =>
    { studio with
      waits := studio.waits ++ [seconds]
      clock := if studio.waitsTakeTime then studio.clock + seconds else studio.clock }

def declare (items : List Json) : Work α Unit :=
  items.forM fun item => do
    let studio ← get
    let declared ← Work.ofExcept (Declared.ofJson studio.host.homes studio.session.base item)
    let length ← onHost (Media.duration studio.settings declared.file)
    change (·.record [declared.toEvent length])

/-- Reads the audio section of a scene whose media files lie at `base`. What was read before a
failure stays. -/
def configure (config : Json) (base : Path) : Work α Unit := do
  change ({ · with base })
  if !config.truthy then return
  let channels ← Work.ofExcept do Session.membersOf (← config.memberOrNull "channels")
  let (result, session) := (← get).session.addChannels channels
  change fun _ => session
  Work.ofExcept result
  let tracks ← Work.ofExcept do Session.itemsOf (← config.memberOrNull "tracks")
  declare tracks

def begin : Work α Unit := do
  let clock := (← get).clock
  change (·.begin clock)

structure Request (α : Type) where
  file : String
  channel : Int := Channel.narrationId
  wait : Bool := true
  fadeIn : α
  fadeOut : α
  offset : Option α := none
  loop : Bool := false

def Request.start (request : Request α) : α :=
  match request.offset with
  | some offset => if offset == 0 then 0 else offset
  | none => 0

def secondsWith (margin : Int) (ms : α) : Except Failure α :=
  let margin : α := Number.ofInt margin
  if Number.isFinite margin then .ok ((ms + margin) / 1000) else .error .integerTooLarge

def secondsOf (ms : Int) : α :=
  Number.ofDecimal ⟨ms < 0, ms.natAbs, 3⟩

def wholeSeconds (ms : Int) : Except Failure α :=
  let seconds : α := secondsOf ms
  if Number.isFinite seconds then .ok seconds else .error .quotientTooLarge

/-- How long to wait for a clip that a sink plays, in seconds: as long as the sink says in its
answer, or as long as the clip is if it says nothing, and a little longer. -/
def waitFor (margin : Int) (length : α) (answer : Json) : Except Failure α := do
  let reported ← (answer.orElse (.object [])).memberOrNull "duration"
  if !reported.truthy then return ← secondsWith margin length
  match reported with
  | .bool _ => wholeSeconds (1000 + margin)
  | .int n => wholeSeconds (n * 1000 + margin)
  | .float x => secondsWith margin (Number.ofFloat x * 1000)
  | _ => .error .wrongType

def playLive (sink : Sink) (file : Path) : Work α Json := do
  modify fun studio =>
    { studio with
      sink := some { sink with answers := sink.answers.tail, played := sink.played ++ [file] } }
  pure (sink.answers.head?.getD .null)

/-- Waits for as long as a clip is heard: as the live sink says, and a little longer; a clip that
is only mixed in afterwards takes its own length. -/
def hear (request : Request α) (file : Path) (length : α) (output : Output) : Work α Unit := do
  let studio ← get
  if output.isLive then
    match studio.sink with
    | none => return
    | some sink =>
      let answer ← playLive sink file
      if request.wait then
        wait (← Work.ofExcept (waitFor studio.settings.settleMargin length answer))
  else if request.wait && output.isPostOnly then
    wait (length / 1000)

/-- Plays a file on a channel and returns how long it is, in milliseconds. -/
def play (request : Request α) : Work α α := do
  let studio ← get
  let channel := studio.session.channel request.channel
  let file ← Work.ofExcept
    (Path.ofMedia studio.host.homes studio.session.base request.file)
  let length ← onHost (Media.duration studio.settings file)
  if length ≤ 0 then warn logger ("Áudio ausente ou vazio: " ++ file.toString)
  let cue : Cue α :=
    ⟨file, length, request.fadeIn, request.fadeOut, request.start, request.loop⟩
  let least := Number.ofInt studio.settings.crossfadeMin
  change (·.play least studio.now request.channel cue)
  hear request file length channel.output
  pure length

def stop (id : Option Int) (fadeOut : Option α) : Work α Unit := do
  let studio ← get
  let fadeOut := fadeOut.getD (Number.ofInt studio.settings.stopFade)
  let targets := studio.session.stopTargets id
  change (·.stop studio.now fadeOut targets)
  match studio.sink with
  | none => return
  | some sink =>
    if targets.any fun id => (studio.session.channel id).output.isLive then
      modify ({ · with sink := some { sink with stops := sink.stops + 1 } })

def setVolume (id : Int) (volume ramp : α) : Work α Unit := do
  let studio ← get
  change (·.setVolume studio.now id volume ramp)

def reset : Work α Unit := do
  change Session.reset
  onHost (Job.ofAct Media.forgetAll)

def compile (video : Path) (videoLength : Option α) : Work α Mix := do
  let (left, mix) := (← get).session.mix video videoLength
  left.forM fun file => warn mixLogger ("Áudio sem duração ignorado na mixagem: " ++ file.toString)
  Work.ofExcept mix

def render (video output : Path) : Work α Bool := do
  onHost (Job.ofAct (Media.forget video))
  let settings := (← get).settings
  let length ← onHost (Media.duration settings video)
  let mix ← compile video (some (length / 1000))
  onHost <| Job.ofAct do
    if !mix.hasAudio then Render.copyVideo logger video output
    else
      let plan := Render.Plan.ofMix settings mix
      let command := plan.command (settings.ffmpeg (← get).programs) output
      return (← Render.invoke command settings.renderTimeout output "mix").success

end Studio

end Screencast
