import Screencast.Audio.Studio
import Screencast.Cursor.File
import Screencast.Log.Journal
import Screencast.Number.Rational
import Screencast.Render.Viewport
import Screencast.Settings.Load
import Screencast.Viewport.Config
import Screencast.Proofs.Number.Lawful
import Screencast.Proofs.Order
import Screencast.Proofs.Viewport.Run
import Screencast.Proofs.Viewport.Window
import Screencast.Proofs.Viewport.Zoom
import Screencast.Proofs.Curve.Eval
import Screencast.Proofs.Viewport.Crop
import Screencast.Proofs.Audio.Parts
import Screencast.Proofs.Audio.Recording
import Screencast.Proofs.Audio.Turns
import Screencast.Proofs.Audio.Handover
import Screencast.Proofs.Text.Unmarked
import Screencast.Proofs.Audio.Chain
import Screencast.Proofs.Audio.Graph
import Screencast.Proofs.Number.Rounding
import Screencast.Proofs.Number.Unpacked
import Screencast.Proofs.Number.Arithmetic
import Screencast.Proofs.Number.Machine
import Screencast.Proofs.Number.Places
import Screencast.Proofs.Curve.Interpolation
import Screencast.Proofs.Audio.Settling
import Screencast.Proofs.Audio.Fading
import Screencast.Proofs.Text.Figures
import Screencast.Proofs.Curve.Formula
import Screencast.Proofs.Curve.Reading
import Screencast.Proofs.Curve.Rendering
import Screencast.Proofs.Viewport.Hull
import Screencast.Proofs.Viewport.Past
import Screencast.Proofs.Audio.Operation
import Screencast.Proofs.Audio.Sounding
import Screencast.Proofs.Audio.Likeness
import Screencast.Proofs.Audio.Renewal
import Screencast.Proofs.Viewport.Pan
import Screencast.Proofs.Viewport.Center
import Screencast.Proofs.Viewport.Origin
import Screencast.Proofs.Viewport.Carried
import Screencast.Proofs.Audio.Silence
import Screencast.Proofs.Audio.Strand
import Screencast.Proofs.Audio.Hearing
import Screencast.Proofs.Viewport.Declaration
import Screencast.Proofs.Viewport.Compiled
import Screencast.Proofs.Viewport.Hold
import Screencast.Proofs.Audio.Ramping
import Screencast.Proofs.Audio.Overshoot
import Screencast.Proofs.Audio.Ending
import Screencast.Proofs.Cursor.Position
import Screencast.Proofs.Number.Bits
import Screencast.Proofs.Number.Scientific
import Screencast.Proofs.Number.Shortest
import Screencast.Proofs.Number.ReadBack
import Screencast.Proofs.Number.Range
import Screencast.Proofs.Json.Numbers
import Screencast.Proofs.Json.Reading
import Screencast.Proofs.Cursor.Saving
import Screencast.Proofs.Cursor.Loading
import Screencast.Proofs.Steps
import Screencast.Proofs.Json.Refusing
import Screencast.Proofs.Json.Taking
import Screencast.Proofs.Media.Info
import Screencast.Proofs.Media.Asking
import Screencast.Proofs.Viewport.Transition
import Screencast.Proofs.Media.Remembering
import Screencast.Proofs.Render.Probing
import Screencast.Proofs.Render.Running
import Screencast.Proofs.Render.Outcome
import Screencast.Proofs.Audio.Declaring
import Screencast.Proofs.Audio.Retrying
import Screencast.Proofs.Viewport.Keyframes
import Screencast.Proofs.Viewport.Effects
import Screencast.Proofs.Path
import Screencast.Proofs.Number.Trimmed
import Screencast.Proofs.Audio.Amounts
