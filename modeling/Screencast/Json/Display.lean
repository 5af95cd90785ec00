import Screencast.Json.Writer
import Screencast.Text.Quoted

/-!
JSON values as they are shown in messages: a text as it is, or between quotes where it is part of
something larger; lists in square brackets, objects in braces.
-/

namespace Screencast.Json

mutual

def quoted : Json → String
  | null => "None"
  | bool b => if b then "True" else "False"
  | int n => String.ofList (intChars n)
  | float x => floatText x
  | string s => Text.quoted s
  | array items => "[" ++ quotedItems items ++ "]"
  | object members => "\x7b" ++ quotedMembers members ++ "\x7d"

def quotedItems : List Json → String
  | [] => ""
  | [x] => x.quoted
  | x :: rest => x.quoted ++ ", " ++ quotedItems rest

def quotedMembers : List (String × Json) → String
  | [] => ""
  | [(key, x)] => Text.quoted key ++ ": " ++ x.quoted
  | (key, x) :: rest => Text.quoted key ++ ": " ++ x.quoted ++ ", " ++ quotedMembers rest

end

/-- A value as it is shown: a text alone goes without quotes. -/
def shown : Json → String
  | string s => s
  | value => value.quoted

end Screencast.Json
