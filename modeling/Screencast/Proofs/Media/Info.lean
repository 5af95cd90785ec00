import Screencast.Media.Info
import Screencast.Proofs.Json.Taking

/-!
Which documents of the probe tool say something of a file. Nearly any value is taken in place of the
length; but the objects on the way to it and to the streams must be objects, and the first picture
with a width must have both sides as whole numbers.
-/

namespace Screencast

open Json

namespace Json

variable {value : Json} {key : String}

def GivesWhole (value : Json) (key : String) : Prop :=
  ∃ side ∈ value.get? key, ∃ n, side.toInteger = .ok n

end Json

namespace MediaInfo

variable {α : Type} [Number α]

def Paired (info : MediaInfo α) : Prop :=
  info.width = none ↔ info.height = none

theorem paired_unknown : (unknown : MediaInfo α).Paired :=
  Iff.rfl

theorem paired_of_ofJson {document : Json} {info : MediaInfo α}
    (read : ofJson document = .ok info) :
    info.Paired := by
  unfold ofJson at read
  simp only [bind_eq_ok_iff] at read
  obtain ⟨duration, -, streams, -, items, -, size, -, made⟩ := read
  cases made
  cases size <;> simp [Paired]

def IsPicture (stream : Json) : Prop :=
  stream.get? "codec_type" = some (.string "video") ∧
    ∃ width ∈ stream.get? "width", width.truthy = true

def Passes (stream : Json) : Prop :=
  stream.IsObject ∧ ¬ IsPicture stream

/-- Whether nothing can be made of a stream: it is no object, or it is a picture with a side that
is no whole number. -/
def Breaks (stream : Json) : Prop :=
  ¬ stream.IsObject ∨
    IsPicture stream ∧ ¬ (stream.GivesWhole "width" ∧ stream.GivesWhole "height")

/-- Whether a document says something of a file. -/
structure Regular (document : Json) : Prop where
  isObject : document.IsObject
  format : ∀ format ∈ document.get? "format",
    format.IsObject ∧ ∀ duration ∈ format.get? "duration", ¬ duration.Oversized
  streams : ∀ value ∈ document.get? "streams",
    ∃ streams, value.elements = .ok streams ∧ ¬ StopsAt Passes Breaks streams

section Streams

variable {stream : Json} {streams : List Json}

def sides (stream : Json) : Except Failure (Option (Int × Int)) := do
  let width ← (← stream.item "width").toInteger
  let height ← (← stream.item "height").toInteger
  pure (some (width, height))

theorem exists_sides_iff : (∃ size, sides stream = .ok size) ↔
    stream.GivesWhole "width" ∧ stream.GivesWhole "height" := by
  unfold sides GivesWhole
  simp only [bind_eq_ok_iff, item_eq_ok]
  constructor
  · rintro ⟨_, width, atWidth, w, isWidth, height, atHeight, h, isHeight, -⟩
    exact ⟨⟨width, atWidth, w, isWidth⟩, height, atHeight, h, isHeight⟩
  · rintro ⟨⟨width, atWidth, w, isWidth⟩, height, atHeight, h, isHeight⟩
    exact ⟨_, width, atWidth, w, isWidth, height, atHeight, h, isHeight, rfl⟩

theorem isVideo_iff (codec : Option Json) : (match codec.getD .null with
    | .string "video" => true
    | _ => false) = true ↔ codec = some (.string "video") := by
  constructor
  · intro isVideo
    split at isVideo
    · next same =>
      cases codec with
      | none => cases same
      | some value => exact congrArg some same
    · cases isVideo
  · rintro rfl
    rfl

theorem truthy_getD_iff (value : Option Json) :
    (value.getD .null).truthy = true ↔ ∃ given ∈ value, given.truthy = true := by
  cases value <;> simp [truthy]

open Classical in
/-- The walk ends at the first picture; any other object is passed over. -/
theorem sizeOf_cons (isObject : stream.IsObject) : sizeOf (stream :: streams) =
    if IsPicture stream then sides stream else sizeOf streams := by
  have picture := (isVideo_iff (stream.get? "codec_type")).and
    (truthy_getD_iff (stream.get? "width"))
  rw [← Bool.and_eq_true] at picture
  rw [sizeOf]
  simp only [memberOrNull_of_isObject isObject]
  exact if_congr picture rfl rfl

theorem exists_sizeOf_iff : (∃ size, sizeOf streams = .ok size) ↔
    ¬ StopsAt Passes Breaks streams := by
  induction streams with
  | nil => exact iff_of_true ⟨none, rfl⟩ not_stopsAt_nil
  | cons stream streams ih =>
    rw [stopsAt_cons, Passes, Breaks]
    by_cases isObject : stream.IsObject
    · -- Behind an object the walk goes on exactly if it is no picture.
      rw [sizeOf_cons isObject]
      by_cases picture : IsPicture stream
      · rw [if_pos picture, exists_sides_iff]
        simp [isObject, picture]
      · rw [if_neg picture, ih]
        simp [isObject, picture]
    · have broken : ∀ size, sizeOf (stream :: streams) ≠ .ok size := by
        intro size read
        rw [sizeOf, bind_eq_ok_iff] at read
        obtain ⟨codec, given, -⟩ := read
        exact isObject (isObject_of_memberOrNull given)
      simp [isObject, broken]

end Streams

theorem exists_secondsOrNone_iff {value : Json} :
    (∃ seconds, secondsOrNone value = .ok seconds) ↔ ¬ value.Oversized := by
  rw [← toFloat_eq_integerTooLarge]
  unfold secondsOrNone
  split
  · next same => simp [same]
  · next same => simp [same]
  · next cause other same =>
    rw [same]
    exact iff_of_true ⟨0, rfl⟩ fun equal => other (Except.error.inj equal)

theorem exists_durationOf_iff {document : Json} :
    (∃ duration : α, durationOf document = .ok duration) ↔ document.IsObject ∧
      ∀ format ∈ document.get? "format",
        format.IsObject ∧ ∀ duration ∈ format.get? "duration", ¬ duration.Oversized := by
  simp only [durationOf, bind_eq_ok_iff, member_eq_ok]
  constructor
  · rintro ⟨_, _, ⟨isObject, rfl⟩, _, ⟨formatIsObject, rfl⟩, seconds, made, -⟩
    refine ⟨isObject, fun format given => ?_⟩
    rw [Option.mem_def.mp given, Option.getD_some] at formatIsObject made
    refine ⟨formatIsObject, fun duration given => ?_⟩
    rw [Option.mem_def.mp given, Option.getD_some] at made
    exact exists_secondsOrNone_iff.mp ⟨seconds, made⟩
  · rintro ⟨isObject, regular⟩
    have formatIsObject : ((document.get? "format").getD (.object [])).IsObject ∧
        ¬ ((((document.get? "format").getD (.object [])).get? "duration").getD
          (.int 0)).Oversized := by
      cases given : document.get? "format" with
      | none => exact ⟨⟨[], rfl⟩, not_oversized_zero⟩
      | some format =>
        obtain ⟨isObject, short⟩ := regular format given
        refine ⟨isObject, ?_⟩
        rw [Option.getD_some]
        cases given : format.get? "duration" with
        | none => exact not_oversized_zero
        | some duration => exact short duration given
    obtain ⟨seconds, made⟩ := exists_secondsOrNone_iff.mpr formatIsObject.2
    exact ⟨_, _, ⟨isObject, rfl⟩, _, ⟨formatIsObject.1, rfl⟩, seconds, made, rfl⟩

/-- A document says something of a file exactly if it is regular. -/
theorem exists_ofJson_iff {document : Json} :
    (∃ info : MediaInfo α, ofJson document = .ok info) ↔ Regular document := by
  simp only [ofJson, bind_eq_ok_iff, member_eq_ok]
  constructor
  · rintro ⟨_, duration, known, _, ⟨isObject, rfl⟩, streams, walked, size, found, -⟩
    refine ⟨isObject, (exists_durationOf_iff.mp ⟨duration, known⟩).2, fun value given => ?_⟩
    rw [Option.mem_def.mp given, Option.getD_some] at walked
    exact ⟨streams, walked, exists_sizeOf_iff.mp ⟨size, found⟩⟩
  · intro regular
    obtain ⟨duration, known⟩ :=
      (exists_durationOf_iff (α := α)).mpr ⟨regular.isObject, regular.format⟩
    have walks : ∃ streams, ((document.get? "streams").getD (.array [])).elements = .ok streams ∧
        ¬ StopsAt Passes Breaks streams := by
      cases given : document.get? "streams" with
      | none => exact ⟨[], rfl, not_stopsAt_nil⟩
      | some value => exact regular.streams value given
    obtain ⟨streams, walked, unbroken⟩ := walks
    obtain ⟨size, found⟩ := exists_sizeOf_iff.mpr unbroken
    exact ⟨_, duration, known, _, ⟨regular.isObject, rfl⟩, streams, walked, size, found, rfl⟩

end MediaInfo

end Screencast
