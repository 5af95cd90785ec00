import Screencast.Audio.Duration
import Screencast.Audio.Session

/-!
The audio section of a scene: its channels, and the clips that are declared beforehand. An entry
that cannot be read has its cause; those before it count.
-/

namespace Screencast

variable {α : Type} [Number α]

def Json.floatMember (key : String) (default : Float) (value : Json) : Except Failure Float := do
  match ← value.member key with
  | some found => found.toFloat
  | none => .ok default

def Json.durationMember (key : String) (value : Json) : Except Failure Float := do
  Duration.ofJson ((← value.member key).getD (.int 0))

namespace Channel

def ofJson (id : Int) (entry : Json) : Except Failure (Channel α) := do
  let default : Channel α := default id
  let role := (← entry.memberOrNull "role").orElse Role.custom.name
  let output := (← entry.memberOrNull "output").orElse default.output.name
  let volume ← entry.floatMember "volume" 1
  let pan ← entry.floatMember "pan" 0
  pure ⟨id, .ofJson role, .ofJson output, Number.ofFloat volume, Number.ofFloat pan⟩

end Channel

def Loudness.ofJson? : Json → Option (Loudness α)
  | .null => none
  | .bool on => some (.switch on)
  | .float x => some (.amount (Number.ofFloat x))
  | .int n =>
    match Binary.ofInteger n with
    | .ok x => some (.amount (Number.ofFloat x))
    | .error _ => some (.other (.int n))
  | value => some (.other value)

structure Declared (α : Type) where
  channel : Int
  time : α
  clip : Clip α
  file : Path

namespace Declared

def fileOf (homes : Path.Homes) (base : Path) (entry : Json) : Except Failure Path := do
  match ← entry.item "file" with
  | .string file => Path.ofMedia homes base file
  | _ => .error .missingMember

def ofJson (homes : Path.Homes) (base : Path) (entry : Json) : Except Failure (Declared α) := do
  let file ← fileOf homes base entry
  let channel ← ((← entry.member "channel").getD (.int Channel.narrationId)).toInteger
  let time ← entry.durationMember "start_time"
  let fadeIn ← entry.durationMember "fade_in"
  let fadeOut ← entry.durationMember "fade_out"
  let loop := (← entry.memberOrNull "loop").truthy
  let volume := Loudness.ofJson? (← entry.memberOrNull "volume")
  pure {
    channel, time := Number.ofFloat time, file
    clip := ⟨some file, Number.ofFloat fadeIn, Number.ofFloat fadeOut, loop, volume, 0, 0⟩ }

def toEvent (declared : Declared α) (length : α) : Event α :=
  ⟨declared.channel, declared.time, .play { declared.clip with length }⟩

end Declared

namespace Session

def addChannel (session : Session α) (channel : Channel α) : Session α :=
  { session with
    channels := session.channels.put channel.id channel
    volumes := session.volumes.put channel.id channel.volume }

/-- Reads the channels of a scene, up to the first that cannot be read. -/
def addChannels (session : Session α) : List (String × Json) → Except Failure Unit × Session α
  | [] => (.ok (), session)
  | (name, entry) :: rest =>
    match NumberText.toInteger name >>= fun id => Channel.ofJson id entry with
    | .ok channel => (session.addChannel channel).addChannels rest
    | .error failure => (.error failure, session)

def membersOf (entries : Json) : Except Failure (List (String × Json)) :=
  if !entries.truthy then .ok []
  else match entries with
    | .object members => .ok members
    | _ => .error .missingMember

def itemsOf (entries : Json) : Except Failure (List Json) :=
  if entries.truthy then entries.elements else .ok []

end Session

end Screencast
