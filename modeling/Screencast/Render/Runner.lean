import Screencast.Host
import Screencast.Json.Display

/-!
Running the video tool. A run fails if the time is up, if the tool cannot be started and if it
gives up; a stage of rendering succeeds if its run does and its output is there.
-/

namespace Screencast.Render

variable {α : Type}

structure Completed where
  code : Int
  output : String
  errors : String
deriving Repr, DecidableEq

structure Result where
  success : Bool
  output : Option Path
  errors : String
deriving Repr, DecidableEq

def runner : String := "Runner"
def invoker : String := "RenderInvoker"

def fail (note text errors : String) : Job α Completed := do
  Job.ofAct <| Host.log .error runner [.text note]
  throw (.renderFailed text errors)

def run (command : List String) (timeout : Json) : Job α Completed := do
  match ← Job.ofAct <| Host.start command timeout with
  | .timedOut =>
    fail ("Timeout após " ++ timeout.shown ++ "s: " ++ String.intercalate " " command)
      ("Comando FFmpeg excedeu timeout de " ++ timeout.shown ++ "s") ""
  | .refused cause text => do
    Job.ofAct <| Host.log .error runner [.text "Não foi possível executar o FFmpeg: ", .cause cause]
    throw (.renderFailed ("Erro na execução do FFmpeg: " ++ text) text)
  | .exited code output errors =>
    if code = 0 then return ⟨code, output, errors⟩
    else
      fail ("Comando FFmpeg retornou código " ++ toString code ++ ". Stderr: " ++ errors)
        ("FFmpeg falhou com código " ++ toString code) errors

/-- The text of a failed run: what the tool said, or else what is said of it. -/
def reason : Failure → String
  | .renderFailed text errors => if errors = "" then text else errors
  | failure => failure.message.getD ""

def reject (stage note errors : String) : Act α Result := do
  Host.log .error invoker [.text (stage ++ " failed: " ++ note)]
  pure ⟨false, none, errors⟩

def invoke (command : List String) (timeout : Json) (output : Path) (stage : String) :
    Act α Result := do
  match ← (run command timeout).run with
  | .error failure => reject stage (reason failure) (reason failure)
  | .ok _ =>
    if (← get).disk.has output then pure ⟨true, some output, ""⟩
    else
      reject stage ("saída não encontrada em " ++ output.toString)
        ("saída ausente: " ++ output.toString)

end Screencast.Render
