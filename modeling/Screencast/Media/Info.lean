import Screencast.Json.Coerce
import Screencast.Number.Basic

/-!
What is known of a media file: how long it is, in milliseconds, and how large its picture. The
probe tool tells it as a JSON document.
-/

namespace Screencast

structure MediaInfo (α : Type) where
  duration : α
  width : Option Int
  height : Option Int
deriving Repr, DecidableEq

namespace MediaInfo

variable {α : Type} [Number α]

def unknown : MediaInfo α := ⟨0, none, none⟩

/-- A value that names no number counts as no length at all. -/
def secondsOrNone (value : Json) : Except Failure Float :=
  match value.toFloat with
  | .ok seconds => .ok seconds
  | .error .integerTooLarge => .error .integerTooLarge
  | .error _ => .ok 0

/-- The length that a document gives, in milliseconds. -/
def durationOf (document : Json) : Except Failure α := do
  let format := (← document.member "format").getD (.object [])
  let seconds ← secondsOrNone ((← format.member "duration").getD (.int 0))
  pure (Number.ofFloat seconds * 1000)

/-- The size of the first stream that is a picture with a width. -/
def sizeOf : List Json → Except Failure (Option (Int × Int))
  | [] => .ok none
  | stream :: rest => do
    let isVideo := match ← stream.memberOrNull "codec_type" with
      | .string "video" => true
      | _ => false
    if isVideo && (← stream.memberOrNull "width").truthy then
      let width ← (← stream.item "width").toInteger
      let height ← (← stream.item "height").toInteger
      pure (some (width, height))
    else sizeOf rest

def ofJson (document : Json) : Except Failure (MediaInfo α) := do
  let duration ← durationOf document
  let streams := (← document.member "streams").getD (.array [])
  let size ← sizeOf (← streams.elements)
  pure ⟨duration, size.map (·.1), size.map (·.2)⟩

/-- The size of the picture, if both sides are known and not nought. -/
def size? (info : MediaInfo α) : Option (Int × Int) := do
  let width ← info.width
  let height ← info.height
  if width ≠ 0 ∧ height ≠ 0 then some (width, height) else none

end MediaInfo

end Screencast
