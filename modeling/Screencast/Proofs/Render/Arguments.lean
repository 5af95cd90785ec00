import Screencast.Render.Command

/-!
The arguments of a command as the video tool reads them: options one after another, each with its
value. Whatever the settings and the paths are, the inputs of a plan are those of its command.
-/

namespace Screencast.Render

/-- The inputs that arguments name, by the option `-i`; of the options that are used only `-y` has
no value. What is left at the end is the output. -/
def inputsOf : List String → List String
  | "-y" :: rest => inputsOf rest
  | "-i" :: value :: rest => value :: inputsOf rest
  | _ :: _ :: rest => inputsOf rest
  | _ => []

theorem inputsOf_option {option : String} (hasValue : option ≠ "-y") (notInput : option ≠ "-i")
    (value : String) (rest : List String) : inputsOf (option :: value :: rest) = inputsOf rest := by
  rw [inputsOf]
  · exact hasValue
  · exact notInput

theorem inputsOf_last (output : String) : inputsOf [output] = [] := by
  by_cases isFlag : output = "-y"
  · rw [isFlag]
    rfl
  · rw [inputsOf]
    · exact fun rest same => isFlag (List.cons.inj same).1
    · intro value rest same
      cases (List.cons.inj same).2
    · intro option value rest same
      cases (List.cons.inj same).2

theorem inputsOf_inputArguments (inputs : List Path) (rest : List String) :
    inputsOf (inputArguments inputs ++ rest) = inputs.map Path.toString ++ inputsOf rest := by
  induction inputs with
  | nil => rfl
  | cons path inputs ih =>
    change inputsOf ("-i" :: path.toString :: (inputArguments inputs ++ rest)) = _
    rw [inputsOf, ih]
    rfl

theorem inputsOf_filterArguments (plan : Plan) (rest : List String) :
    inputsOf (filterArguments plan ++ rest) = inputsOf rest := by
  unfold filterArguments
  split
  · rfl
  · split
    · exact inputsOf_option (by decide) (by decide) _ _
    · exact inputsOf_option (by decide) (by decide) _ _

theorem inputsOf_streamArguments (streams rest : List String) :
    inputsOf (streamArguments streams ++ rest) = inputsOf rest := by
  induction streams with
  | nil => rfl
  | cons stream streams ih =>
    change inputsOf ("-map" :: stream :: (streamArguments streams ++ rest)) = _
    rw [inputsOf_option (by decide) (by decide), ih]

theorem inputsOf_command (plan : Plan) (tool : String) (output : Path) :
    inputsOf (plan.command tool output).tail =
      plan.inputs.map Path.toString ++ inputsOf (plan.codecs ++ [output.toString]) := by
  have tail : (plan.command tool output).tail =
      "-y" :: (inputArguments plan.inputs ++ (filterArguments plan ++
        (streamArguments plan.streams ++ (plan.codecs ++ [output.toString])))) := by
    simp [Plan.command]
  rw [tail, inputsOf, inputsOf_inputArguments, inputsOf_filterArguments, inputsOf_streamArguments]

theorem inputsOf_command_ofMix (settings : Settings) (mix : Mix) (tool : String) (output : Path) :
    inputsOf ((Plan.ofMix settings mix).command tool output).tail =
      mix.inputs.map Path.toString := by
  rw [inputsOf_command]
  have none : inputsOf ((Plan.ofMix settings mix).codecs ++ [output.toString]) = [] := by
    change inputsOf ("-c:v" :: "copy" :: "-c:a" :: settings.audioCodec :: "-b:a" ::
      settings.audioBitrate :: [output.toString]) = []
    rw [inputsOf_option (by decide) (by decide), inputsOf_option (by decide) (by decide),
      inputsOf_option (by decide) (by decide), inputsOf_last]
  rw [none, List.append_nil]
  rfl

end Screencast.Render
