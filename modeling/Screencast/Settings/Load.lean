import Screencast.Json.Reader
import Screencast.Settings.Basic
import Screencast.Settings.EnvFile
import Screencast.Text.Lower

/-!
Where settings come from: a configuration file, then the environment, then a file of variables. Of a
field that several of them name the first counts; the size of letters in names does not.
-/

namespace Screencast.Settings

def lowerCase (s : String) : String :=
  String.ofList (Text.lower s.toList)

/-- A table by names in small letters; of names that fall together the last counts. -/
def byLowerCase {ν : Type} (table : Table String ν) : Table String ν :=
  Table.ofList (table.map fun (name, value) => (lowerCase name, value))

def variableOf (field : String) : String :=
  "demo_timeline_" ++ field

def given (config : Table String Json) (environment : Table String String)
    (envFile : EnvFile.Variables) : String → Option Json :=
  let config := byLowerCase config
  let environment := byLowerCase environment
  let envFile := byLowerCase envFile
  fun field =>
    (config.find? field) <|>
      ((environment.find? (variableOf field)).map .string) <|>
        ((envFile.find? (variableOf field)).join.map .string)

def readConfig (text : String) : Except Failure (Table String Json) := do
  match ← Json.parse text with
  | .object members => pure members
  | _ => .error .wrongType

def load (config : Option String) (envFile : Option String)
    (environment : Table String String) : Except Failure Settings := do
  let members ← match config with
    | some text => readConfig text
    | none => pure []
  let read := match envFile with
    | some text => EnvFile.read environment text
    | none => []
  ofGiven (given members environment read)

def ofMembers (members : Table String Json) : Except Failure Settings :=
  ofGiven (given members [] [])

end Screencast.Settings
