import Screencast.Media.Probe
import Screencast.Render.Command
import Screencast.Render.Runner
import Screencast.Viewport.Crop
import Screencast.Viewport.Timeline

/-!
Rendering the viewport: the commands become a timeline, the timeline a crop, and the crop a run of
the video tool. Where there is nothing to move, the video is copied.
-/

namespace Screencast.Render

variable {α : Type} [Number α]

def copyVideo (logger : String) (input output : Path) : Act α Bool := do
  match ← Host.copy input output with
  | .ok _ => pure true
  | .error cause => do
    Host.log .error logger
      [.text ("Falha ao copiar " ++ input.toString ++ ": "), .cause cause]
    pure false

namespace Viewport

def logger : String := "ViewportService"

/-- The seconds that a video of unknown length is taken to last. -/
def fallbackSeconds : α := 5

def secondsOf (input : Path) (length : α) : Act α α := do
  let seconds := length / 1000
  if seconds ≤ 0 then
    Host.log .warning logger [.text ("Duração de " ++ input.toString ++
      " indisponível, usando " ++ (Number.toPlaces 1 (fallbackSeconds : α)).toText ++ "s")]
    return fallbackSeconds
  return seconds

def film (settings : Settings) (input output : Path) (track : Track α)
    (commands : List (Command α)) (size : Int × Int) (length : α) : Job α Bool := do
  let seconds ← Job.ofAct (secondsOf input length)
  let frames ← Timeline.ofVideo commands track seconds settings.viewportFps size
  if frames.length < 2 then return ← Job.ofAct (copyVideo logger input output)
  let crop ← Crop.ofTimeline frames size.1 size.2 settings.keyframeInterval
  let plan := Plan.ofCrop input (← crop.toFilter)
  let command := plan.command (settings.ffmpeg (← get).programs) output
  return (← Job.ofAct (invoke command settings.renderTimeout output "crop")).success

/-- Renders what the commands show of a video; `true` if the output is there. -/
def apply (settings : Settings) (input output : Path) (track : Track α)
    (commands : List (Command α)) (resolution : Option (Int × Int)) : Job α Bool := do
  if commands.isEmpty then return ← Job.ofAct (copyVideo logger input output)
  Job.ofAct (Media.forget input)
  let default := resolution.getD (settings.defaultWidth, settings.defaultHeight)
  let size ← Media.resolution settings input default
  let length ← Media.duration settings input
  film settings input output track commands size length

end Viewport

end Screencast.Render
