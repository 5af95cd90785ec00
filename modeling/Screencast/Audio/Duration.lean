import Screencast.Json.Coerce
import Screencast.Text.Lower

/-!
Lengths of time in milliseconds. A number is one already; a text names milliseconds, or seconds if
it ends in a lone `s`.
-/

namespace Screencast.Duration

def before? (ending text : List Char) : Option (List Char) :=
  if ending.isSuffixOf text then some (text.take (text.length - ending.length)) else none

/-- Blanks at both ends and the size of letters do not count. -/
def ofText (text : String) : Except Failure Float :=
  let cs := Text.lower (Text.strip text.toList)
  match before? ['m', 's'] cs with
  | some number => NumberText.toFloat (String.ofList number)
  | none =>
    match before? ['s'] cs with
    | some number => (NumberText.toFloat (String.ofList number)).map (· * 1000)
    | none => NumberText.toFloat (String.ofList cs)

def ofJson : Json → Except Failure Float
  | .null => .ok 0
  | .string text => ofText text
  | .array _ | .object _ => .error .missingMember
  | number => number.toFloat

end Screencast.Duration
