import Screencast.Number.Binary
import Screencast.Table

/-!
JSON values. Whole numbers, of any size, and numbers with a fraction or an exponent are kept apart;
an object is a table of its members.
-/

namespace Screencast

inductive Json where
  | null
  | bool (value : Bool)
  | int (value : Int)
  | float (value : Float)
  | string (value : String)
  | array (items : List Json)
  | object (members : List (String × Json))
deriving Inhabited, BEq, Repr

namespace Json

/-- The object with these members; of two with one key the later counts. -/
def ofMembers (members : List (String × Json)) : Json :=
  .object (Table.ofList members)

def get? (key : String) : Json → Option Json
  | object members => Table.find? key members
  | _ => none

end Json

end Screencast
