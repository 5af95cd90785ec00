import Screencast.Cursor.Track
import Screencast.Json.Coerce
import Screencast.Json.Reader
import Screencast.Json.Writer

/-!
Files of cursor tracks: a JSON object whose `positions` are objects of a time and a place each. A
file that is missing or holds anything else gives an empty track.
-/

namespace Screencast

def Sample.ofJson (value : Json) : Except Failure (Sample Float) := do
  let time ← (← value.item "timestamp").toFloat
  let x ← (← value.item "x").toFloat
  let y ← (← value.item "y").toFloat
  pure ⟨time, x, y⟩

def Sample.toJson (sample : Sample Float) : Json :=
  .object [("timestamp", .float sample.time), ("x", .float sample.x), ("y", .float sample.y)]

namespace Track

def ofJson (document : Json) : Except Failure (Track Float) := do
  let positions := (← document.member "positions").getD (.array [])
  (← positions.elements).mapM Sample.ofJson

def toJson (track : Track Float) : Json :=
  .object [("positions", .array (track.map Sample.toJson))]

def parse (text : String) : Except Failure (Track Float) := do
  ofJson (← Json.parse text)

/-- A whole number too large is a failure of its own; any other failure leaves an empty track. -/
def orEmpty : Except Failure (Track Float) → Except Failure (Track Float)
  | .ok track => .ok track
  | .error .integerTooLarge => .error .integerTooLarge
  | .error _ => .ok []

def load (bytes : Option ByteArray) : Except Failure (Track Float) :=
  match bytes with
  | none => .ok []
  | some bytes =>
    match String.fromUTF8? bytes with
    | none => .ok []
    | some text => orEmpty (parse text)

def save (track : Track Float) : String :=
  (toJson track).indented

/-- Whether two tracks are the same, number by number; NaN is like no number. -/
def equals (track other : Track Float) : Bool :=
  track.length == other.length &&
    (track.zip other).all fun (a, b) => a.time == b.time && a.x == b.x && a.y == b.y

end Track

end Screencast
