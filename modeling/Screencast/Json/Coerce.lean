import Screencast.Json.Basic
import Screencast.Number.Reader

/-!
How a JSON value is taken where a number, a choice or a member is asked for. Texts that name
numbers count as numbers, `true` and `false` as one and nought; what cannot be taken has its cause.
-/

namespace Screencast.Json

/-- Nothing, nought and all that is empty count as no. -/
def truthy : Json → Bool
  | null => false
  | bool b => b
  | int n => n != 0
  | float x => !(x == 0.0)
  | string s => !s.isEmpty
  | array items => !items.isEmpty
  | object members => !members.isEmpty

def orElse (value other : Json) : Json :=
  if value.truthy then value else other

def toFloat : Json → Except Failure Float
  | bool b => .ok (if b then 1.0 else 0.0)
  | int n => Binary.ofInteger n
  | float x => .ok x
  | string s => NumberText.toFloat s
  | null | array _ | object _ => .error .wrongType

def toInteger : Json → Except Failure Int
  | bool b => .ok (if b then 1 else 0)
  | int n => .ok n
  | float x => (Binary.exact x).truncate
  | string s => NumberText.toInteger s
  | null | array _ | object _ => .error .wrongType

def member (key : String) : Json → Except Failure (Option Json)
  | object members => .ok (Table.find? key members)
  | _ => .error .missingMember

def memberOrNull (key : String) (value : Json) : Except Failure Json :=
  return (← value.member key).getD null

def item (key : String) : Json → Except Failure Json
  | object members =>
    match Table.find? key members with
    | some value => .ok value
    | none => .error (.missingKey key)
  | _ => .error .wrongType

/-- What a walk through the value meets: the items of a list, the keys of an object, the characters
of a text. -/
def elements : Json → Except Failure (List Json)
  | array items => .ok items
  | object members => .ok (members.map fun (key, _) => string key)
  | string s => .ok (s.toList.map fun c => string (String.singleton c))
  | _ => .error .wrongType

end Screencast.Json
