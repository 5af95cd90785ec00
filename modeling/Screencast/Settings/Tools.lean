import Screencast.Settings.Basic
import Screencast.Table

/-!
Where the tools are: where the settings say, or else where the host finds them by name.
-/

namespace Screencast.Settings

/-- A tool's path; an empty one says nothing, and a name that is not found stands for itself. -/
def toolPath (configured : Option String) (programs : Table String String) (name : String) :
    String :=
  match configured with
  | some path => if path = "" then (programs.find? name).getD name else path
  | none => (programs.find? name).getD name

def ffmpeg (settings : Settings) (programs : Table String String) : String :=
  toolPath settings.ffmpegPath programs "ffmpeg"

def ffprobe (settings : Settings) (programs : Table String String) : String :=
  toolPath settings.ffprobePath programs "ffprobe"

end Screencast.Settings
