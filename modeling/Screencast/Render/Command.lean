import Screencast.Audio.Mix
import Screencast.Settings.Tools

/-!
The commands that start the video tool: the inputs, the filter, the streams that are kept, how
these are written, and the output.
-/

namespace Screencast.Render

structure Plan where
  inputs : List Path
  filter : String
  /-- One chain of filters for one input, as against a graph. -/
  isChain : Bool := false
  streams : List String := []
  codecs : List String := []

def inputArguments (inputs : List Path) : List String :=
  inputs.flatMap fun path => ["-i", path.toString]

def filterArguments (plan : Plan) : List String :=
  if plan.filter = "" then []
  else [if plan.isChain then "-vf" else "-filter_complex", plan.filter]

def streamArguments (streams : List String) : List String :=
  streams.flatMap fun stream => ["-map", stream]

def Plan.command (plan : Plan) (tool : String) (output : Path) : List String :=
  [tool, "-y"] ++ inputArguments plan.inputs ++ filterArguments plan ++
    streamArguments plan.streams ++ plan.codecs ++ [output.toString]

def Plan.ofMix (settings : Settings) (mix : Mix) : Plan where
  inputs := mix.inputs
  filter := mix.graph
  streams := ["0:v", "[" ++ mix.label ++ "]"]
  codecs := ["-c:v", "copy", "-c:a", settings.audioCodec, "-b:a", settings.audioBitrate]

def Plan.ofCrop (input : Path) (filter : String) : Plan where
  inputs := [input]
  filter := filter
  isChain := true
  codecs := ["-c:a", "copy"]

end Screencast.Render
