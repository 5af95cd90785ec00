import Screencast.Host
import Screencast.Json.Reader
import Screencast.Settings.Tools

/-!
Asking about media files. The answer for a path is kept until it is forgotten; a file that is
missing or that the probe tool cannot read is one of which nothing is known.
-/

namespace Screencast.Media

variable {α : Type} [Number α]

def logger : String := "MediaProbe"

def probeArguments : List String :=
  ["-v", "error", "-show_entries", "stream=codec_type,width,height:format=duration", "-of", "json"]

def probeCommand (tool : String) (path : Path) : List String :=
  tool :: probeArguments ++ [path.toString]

def notFound (path : Path) : String :=
  "Arquivo de mídia não encontrado: " ++ path.toString

def documentOf : Ending → Except Failure Json
  | .timedOut => .error .timedOut
  | .refused cause _ => .error cause
  | .exited code output _ => if code = 0 then Json.parse output else .error (.exited code)

def giveUp (path : Path) (cause : Failure) : Act α (MediaInfo α) := do
  Host.log .warning logger
    [.text ("Erro ao consultar " ++ path.toString ++ ": "), .cause cause]
  pure .unknown

/-- Asks the probe tool. A tool whose time is up is a failure. -/
def ask (settings : Settings) (path : Path) : Job α (MediaInfo α) := do
  let host ← get
  if !host.disk.has path then
    Job.ofAct <| Host.log .warning logger [.text (notFound path)]
    return .unknown
  let ending ← Job.ofAct <| Host.start (probeCommand (settings.ffprobe host.programs) path) .null
  match documentOf ending with
  | .ok document => MediaInfo.ofJson document
  | .error .timedOut => throw .timedOut
  | .error cause => Job.ofAct (giveUp path cause)

def look (settings : Settings) (path : Path) : Job α (MediaInfo α) := do
  match (← get).facts with
  | .tool => ask settings path
  | .catalogue facts =>
    modify fun host => { host with looked := host.looked ++ [path.name] }
    return (facts.find? path.name).getD .unknown

def probe (settings : Settings) (path : Path) : Job α (MediaInfo α) := do
  match (← get).known.find? path.toString with
  | some info => return info
  | none =>
    let info ← look settings path
    modify fun host => { host with known := host.known.put path.toString info }
    return info

/-- How long a file is, in milliseconds. -/
def duration (settings : Settings) (path : Path) : Job α α := do
  return (← probe settings path).duration

def resolution (settings : Settings) (path : Path) (default : Int × Int) : Job α (Int × Int) := do
  return (← probe settings path).size?.getD default

def forget (path : Path) : Act α Unit :=
  modify fun host => { host with known := host.known.erase path.toString }

def forgetAll : Act α Unit :=
  modify fun host => { host with known := [] }

end Screencast.Media
