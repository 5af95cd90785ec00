import Screencast.Number.Basic
import Screencast.Json.Coerce

/-!
Channels: tracks of sound, each with its own way out and its own volume. The first one is the
narration, heard live through the virtual microphone; every other is mixed in afterwards.
-/

namespace Screencast

/-- What a channel is for; nothing but its name depends on it. -/
inductive Role where
  | narration
  | custom
  | other (value : Json)

inductive Output where
  | virtualMic
  | monitor
  | both
  | postOnly
  | other (value : Json)

structure Channel (α : Type) where
  id : Int
  role : Role
  output : Output
  volume : α
  pan : α

namespace Role

def name : Role → Json
  | narration => .string "narration"
  | custom => .string "custom"
  | other value => value

def ofJson : Json → Role
  | .string "narration" => narration
  | .string "custom" => custom
  | value => other value

end Role

namespace Output

def name : Output → Json
  | virtualMic => .string "virtual-mic"
  | monitor => .string "monitor"
  | both => .string "both"
  | postOnly => .string "post-only"
  | other value => value

def ofJson : Json → Output
  | .string "virtual-mic" => virtualMic
  | .string "monitor" => monitor
  | .string "both" => both
  | .string "post-only" => postOnly
  | value => other value

def isLive : Output → Bool
  | virtualMic | both => true
  | _ => false

/-- Whether the sound is mixed in afterwards; what went through the microphone alone is in the
recording already. -/
def isMixed : Output → Bool
  | virtualMic => false
  | _ => true

def isPostOnly : Output → Bool
  | postOnly => true
  | _ => false

end Output

namespace Channel

variable {α : Type} [Number α]

def narrationId : Int := 1

/-- The channel that a number stands for as long as nothing is said about it. -/
def default (id : Int) : Channel α :=
  if id = narrationId then ⟨id, .narration, .virtualMic, 1, 0⟩ else ⟨id, .custom, .postOnly, 1, 0⟩

end Channel

abbrev Channels (α : Type) := Table Int (Channel α)

def Channels.get {α : Type} [Number α] (channels : Channels α) (id : Int) : Channel α :=
  (Table.find? id channels).getD (.default id)

end Screencast
