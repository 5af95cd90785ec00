import Screencast.Cursor.File
import Screencast.Proofs.Json.Reading

/-!
A track that was saved is loaded as it was, bit by bit, whatever its numbers are.
-/

namespace Screencast

open Json Json.Reader

theorem Sample.ofJson_toJson (sample : Sample Float) : ofJson sample.toJson = .ok sample := by
  rfl

def Sample.entry (time x y : Json) : Json :=
  .object [("timestamp", time), ("x", x), ("y", y)]

theorem Sample.legible_entry {time x y : Json} (legibleTime : Legible time) (legibleX : Legible x)
    (legibleY : Legible y) : Legible (entry time x y) := by
  unfold entry
  apply Legible.of_members (by simp)
  simp only [List.forall_mem_cons]
  exact ⟨⟨by decide, legibleTime⟩, ⟨by decide, legibleX⟩, ⟨by decide, legibleY⟩,
    List.forall_mem_nil _⟩

theorem Sample.legible_toJson (sample : Sample Float) : Legible sample.toJson :=
  legible_entry (.float sample.time) (.float sample.x) (.float sample.y)

namespace Track

theorem mapM_ofJson_toJson (track : Track Float) :
    (track.map Sample.toJson).mapM Sample.ofJson = .ok track := by
  induction track with
  | nil => rfl
  | cons sample track ih =>
    rw [List.map_cons, List.mapM_cons, Sample.ofJson_toJson, ih]
    rfl

theorem ofJson_toJson (track : Track Float) : ofJson (toJson track) = .ok track :=
  mapM_ofJson_toJson track

def document (entries : List Json) : Json :=
  .object [("positions", .array entries)]

theorem legible_document {entries : List Json} (legible : ∀ entry ∈ entries, Legible entry) :
    Legible (document entries) := by
  unfold document
  apply Legible.of_members (by simp)
  simp only [List.forall_mem_cons]
  exact ⟨⟨by decide, .array legible⟩, List.forall_mem_nil _⟩

theorem legible_toJson (track : Track Float) : Legible (toJson track) := by
  apply legible_document
  intro entry member
  obtain ⟨sample, -, rfl⟩ := List.mem_map.mp member
  exact sample.legible_toJson

theorem fromUTF8?_toUTF8 (text : String) : String.fromUTF8? text.toUTF8 = some text :=
  dif_pos text.isValidUTF8

theorem load_indented {document : Json} (legible : Legible document) :
    load (some document.indented.toUTF8) = orEmpty (ofJson document) := by
  unfold load
  dsimp only
  rw [fromUTF8?_toUTF8]
  dsimp only
  rw [parse, parse_indented legible]
  rfl

theorem equals_self (track : Track Float) :
    track.equals track = true ↔ ∀ sample ∈ track, (sample.time == sample.time) = true ∧
      (sample.x == sample.x) = true ∧ (sample.y == sample.y) = true := by
  unfold equals
  rw [beq_self_eq_true, Bool.true_and]
  induction track with
  | nil => simp
  | cons sample track ih =>
    rw [List.zip_cons_cons, List.all_cons, Bool.and_eq_true, ih, List.forall_mem_cons]
    simp only [Bool.and_eq_true, and_assoc]

/-- A saved track is loaded bit by bit as it was. By comparison it is the same unless one of its
numbers is like no number, not even itself. -/
theorem load_save (track : Track Float) :
    load (some (save track).toUTF8) = .ok track ∧
      (track.equals track = true ↔ ∀ sample ∈ track, (sample.time == sample.time) = true ∧
        (sample.x == sample.x) = true ∧ (sample.y == sample.y) = true) := by
  constructor
  · rw [save, load_indented (legible_toJson track), ofJson_toJson]
    rfl
  · exact equals_self track

end Track

end Screencast
