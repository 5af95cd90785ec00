import Screencast.Proofs.Cursor.Saving
import Screencast.Proofs.Json.Refusing
import Screencast.Proofs.Json.Taking

/-!
What a file of a cursor track gives, whatever it holds: a sample for each of its entries or no
sample at all. One content is not forgiven: a whole number beyond the machine's numbers, if all that
is read before it can be taken.
-/

namespace Screencast

open Json

namespace Json

variable {entry : Json} {key : String}

def Gives (entry : Json) (key : String) (number : Float) : Prop :=
  ∃ value ∈ entry.get? key, value.toFloat = .ok number

def Exceeds (entry : Json) (key : String) : Prop :=
  ∃ value ∈ entry.get? key, value.Oversized

def numberAt (entry : Json) (key : String) : Except Failure Float := do
  (← entry.item key).toFloat

theorem numberAt_eq_ok {number : Float} :
    entry.numberAt key = .ok number ↔ entry.Gives key number := by
  unfold numberAt Gives
  simp only [bind_eq_ok_iff, item_eq_ok]

theorem numberAt_eq_integerTooLarge :
    entry.numberAt key = .error .integerTooLarge ↔ entry.Exceeds key := by
  unfold numberAt Exceeds
  simp only [bind_eq_error_iff, item_ne_integerTooLarge, item_eq_ok, toFloat_eq_integerTooLarge,
    false_or]

end Json

namespace Sample

variable {entry : Json} {sample : Sample Float}

structure Tells (entry : Json) (sample : Sample Float) : Prop where
  time : entry.Gives "timestamp" sample.time
  x : entry.Gives "x" sample.x
  y : entry.Gives "y" sample.y

/-- Whether a number beyond all numbers is met in an entry; its keys are read in this order. -/
def Overflows (entry : Json) : Prop :=
  StopsAt (fun key => ∃ number, entry.Gives key number) entry.Exceeds ["timestamp", "x", "y"]

theorem ofJson_eq (entry : Json) : ofJson entry = (do
    let time ← entry.numberAt "timestamp"
    let x ← entry.numberAt "x"
    let y ← entry.numberAt "y"
    pure ⟨time, x, y⟩) := by
  simp only [ofJson, numberAt, bind_assoc]

theorem ofJson_eq_ok : ofJson entry = .ok sample ↔ Tells entry sample := by
  rw [ofJson_eq]
  simp only [bind_eq_ok_iff, numberAt_eq_ok]
  constructor
  · rintro ⟨time, atTime, x, atX, y, atY, ⟨⟩⟩
    exact ⟨atTime, atX, atY⟩
  · rintro ⟨time, x, y⟩
    exact ⟨_, time, _, x, _, y, rfl⟩

theorem ofJson_eq_integerTooLarge :
    ofJson entry = .error .integerTooLarge ↔ Overflows entry := by
  have made : ∀ sample : Sample Float, (pure sample : Except Failure _) ≠ .error .integerTooLarge :=
    fun _ => nofun
  rw [ofJson_eq, Overflows]
  simp only [bind_eq_error_iff, numberAt_eq_ok, numberAt_eq_integerTooLarge, stopsAt_cons,
    not_stopsAt_nil, made, and_false, exists_false, or_false, exists_and_right]

end Sample

namespace Track

variable {bytes : ByteArray} {track : Track Float}

def entries (text : String) : Except Failure (List Json) := do
  let document ← Json.parse text
  ((← document.member "positions").getD (.array [])).elements

def entries? (bytes : ByteArray) : Option (List Json) :=
  (String.fromUTF8? bytes).bind fun text => (entries text).toOption

/-- Whether a file tells a track: one sample for each of its entries. -/
def Told (bytes : ByteArray) (track : Track Float) : Prop :=
  ∃ entries ∈ entries? bytes, List.Forall₂ Sample.Tells entries track

/-- Whether a number beyond all numbers is met in a file. -/
def Overflows (bytes : ByteArray) : Prop :=
  ∃ entries ∈ entries? bytes,
    StopsAt (fun entry => ∃ sample, Sample.Tells entry sample) Sample.Overflows entries

theorem mem_entries?_iff {items others : List Json} (found : items ∈ entries? bytes) :
    others ∈ entries? bytes ↔ items = others := by
  rw [Option.mem_def.mp found, Option.mem_some_iff]

theorem told_iff {items : List Json} (found : items ∈ entries? bytes) :
    Told bytes track ↔ items.mapM Sample.ofJson = .ok track := by
  simp only [Told, mem_entries?_iff found, exists_eq_left', mapM_eq_ok_iff, Sample.ofJson_eq_ok]

theorem overflows_iff {items : List Json} (found : items ∈ entries? bytes) :
    Overflows bytes ↔ items.mapM Sample.ofJson = .error .integerTooLarge := by
  simp only [Overflows, mem_entries?_iff found, exists_eq_left', mapM_eq_error_iff,
    Sample.ofJson_eq_ok, Sample.ofJson_eq_integerTooLarge]

theorem orEmpty_error {cause : Failure} (other : cause ≠ .integerTooLarge) :
    orEmpty (.error cause) = .ok [] := by
  unfold orEmpty
  split
  · next same => cases same
  · next same =>
    cases same
    exact absurd rfl other
  · rfl

theorem parse_eq (text : String) : parse text = entries text >>= List.mapM Sample.ofJson := by
  simp only [parse, ofJson, entries, bind_assoc]

theorem entries_ne_integerTooLarge (text : String) : entries text ≠ .error .integerTooLarge := by
  intro failed
  have document : Json.parse text ≠ .error .integerTooLarge :=
    fun refused => nomatch parse_failsBy text _ refused
  have positions : ∀ value : Json, value.member "positions" ≠ .error .integerTooLarge := by
    intro value
    cases value <;> exact nofun
  have items : ∀ value : Json, value.elements ≠ .error .integerTooLarge := by
    intro value
    cases value <;> exact nofun
  simp only [entries, bind_eq_error_iff, document, positions, items, false_or, and_false,
    exists_false] at failed

theorem load_eq (bytes : ByteArray) : load (some bytes) =
    ((entries? bytes).elim (.ok []) fun entries => orEmpty (entries.mapM Sample.ofJson)) := by
  unfold load entries?
  dsimp only
  cases String.fromUTF8? bytes with
  | none => rfl
  | some text =>
    have other := entries_ne_integerTooLarge text
    dsimp only [Option.bind]
    rw [parse_eq]
    generalize entries text = read at other
    cases read with
    | ok entries => rfl
    | error cause => exact orEmpty_error fun same => other (congrArg Except.error same)

theorem load_of_told (told : Told bytes track) : load (some bytes) = .ok track := by
  obtain ⟨items, found, -⟩ := id told
  rw [load_eq, Option.mem_def.mp found, Option.elim_some, (told_iff found).mp told]
  rfl

theorem load_of_overflows (overflows : Overflows bytes) :
    load (some bytes) = .error .integerTooLarge := by
  obtain ⟨items, found, -⟩ := id overflows
  rw [load_eq, Option.mem_def.mp found, Option.elim_some, (overflows_iff found).mp overflows]
  rfl

theorem load_of_untold (untold : ∀ track, ¬ Told bytes track) (kept : ¬ Overflows bytes) :
    load (some bytes) = .ok [] := by
  rw [load_eq]
  cases found : entries? bytes with
  | none => rfl
  | some items =>
    rw [Option.elim_some]
    cases read : items.mapM Sample.ofJson with
    | ok track => exact absurd ((told_iff found).mpr read) (untold track)
    | error cause =>
      apply orEmpty_error
      rintro rfl
      exact kept ((overflows_iff found).mpr read)

theorem not_told_of_entry {items : List Json} (found : items ∈ entries? bytes) {entry : Json}
    (member : entry ∈ items) (bad : ∀ sample, ¬ Sample.Tells entry sample) :
    ¬ Told bytes track := by
  rintro ⟨others, present, tells⟩
  obtain rfl := Option.mem_unique found present
  obtain ⟨sample, -, told⟩ := exists_of_mem_left tells member
  exact bad sample told

def file (entries : List Json) : ByteArray :=
  (document entries).indented.toUTF8

theorem entries?_file {items : List Json} (legible : ∀ item ∈ items, Legible item) :
    entries? (file items) = some items := by
  unfold entries? entries file
  rw [fromUTF8?_toUTF8, Option.bind_some, parse_indented (legible_document legible)]
  rfl

def endless : Json :=
  Sample.entry (.int (10 ^ 400 : Nat)) (.int 0) (.int 0)

theorem oversized_endless : (Json.int (10 ^ 400 : Nat)).Oversized := by
  refine ⟨_, rfl, ?_⟩
  rw [Int.natAbs_natCast]
  decide +kernel

theorem legible_endless : Legible endless := by
  refine Sample.legible_entry (.int ?_) (.int (by decide)) (.int (by decide))
  rw [Int.natAbs_natCast, Nat.length_toDigits_le_iff (by decide) (by decide)]
  apply Nat.pow_lt_pow_right
  · decide
  · decide

theorem ofJson_endless : Sample.ofJson endless = .error .integerTooLarge := by
  rw [Sample.ofJson_eq_integerTooLarge, Sample.Overflows, stopsAt_cons]
  exact Or.inl ⟨_, rfl, oversized_endless⟩

/-- A file gives a sample for each of its entries, in their order, or none at all, and none if one
entry tells no sample. Only a number beyond all numbers is a failure. -/
theorem load_all_or_nothing (bytes : ByteArray) :
    (¬ Overflows bytes → ∃ track, load (some bytes) = .ok track ∧ (Told bytes track ∨ track = [])) ∧
    (∀ track, Told bytes track → load (some bytes) = .ok track) ∧
    (∀ entries ∈ entries? bytes, (∃ entry ∈ entries, ∀ sample, ¬ Sample.Tells entry sample) →
      ¬ Overflows bytes → load (some bytes) = .ok []) ∧
    (Overflows bytes → load (some bytes) = .error .integerTooLarge) := by
  refine ⟨fun kept => ?_, fun track => load_of_told, ?_, load_of_overflows⟩
  · by_cases told : ∃ track, Told bytes track
    · obtain ⟨track, told⟩ := told
      exact ⟨track, load_of_told told, Or.inl told⟩
    · exact ⟨[], load_of_untold (not_exists.mp told) kept, Or.inr rfl⟩
  · rintro entries found ⟨entry, member, bad⟩ kept
    exact load_of_untold (fun track => not_told_of_entry found member bad) kept

/-- A file of one entry, one whose second entry is nothing, and one with a number beyond all. -/
theorem load_all_or_nothing_each :
    let plain := Sample.entry (.float 0.5) (.bool true) (.float 2)
    (Told (file [plain]) [⟨0.5, 1.0, 2⟩] ∧ load (some (file [plain])) = .ok [⟨0.5, 1.0, 2⟩]) ∧
    (¬ Overflows (file [plain, .null]) ∧
      (∃ track, load (some (file [plain, .null])) = .ok track ∧
        (Told (file [plain, .null]) track ∨ track = [])) ∧
      load (some (file [plain, .null])) = .ok []) ∧
    (Overflows (file [plain, endless]) ∧
      load (some (file [plain, endless])) = .error .integerTooLarge) := by
  intro plain
  have legible : Legible plain := Sample.legible_entry (.float _) (.bool _) (.float _)
  have one : entries? (file [plain]) = some [plain] := entries?_file (by simpa using legible)
  have half : entries? (file [plain, .null]) = some [plain, .null] :=
    entries?_file (by simpa using ⟨legible, .null⟩)
  have beyond : entries? (file [plain, endless]) = some [plain, endless] :=
    entries?_file (by simpa using ⟨legible, legible_endless⟩)
  have told : Told (file [plain]) [⟨0.5, 1.0, 2⟩] := (told_iff one).mpr rfl
  have bad : ∀ sample, ¬ Sample.Tells .null sample := fun _ ⟨⟨_, absent, _⟩, _, _⟩ => nomatch absent
  have kept : ¬ Overflows (file [plain, .null]) := by
    rw [overflows_iff half]
    exact nofun
  have overflows : Overflows (file [plain, endless]) := by
    rw [overflows_iff beyond, mapM_eq_error_iff, stopsAt_cons, stopsAt_cons]
    exact Or.inr ⟨⟨_, rfl⟩, Or.inl ofJson_endless⟩
  obtain ⟨-, whole, -, -⟩ := load_all_or_nothing (file [plain])
  obtain ⟨some, -, empty, -⟩ := load_all_or_nothing (file [plain, .null])
  obtain ⟨-, -, -, failed⟩ := load_all_or_nothing (file [plain, endless])
  exact ⟨⟨told, whole _ told⟩, ⟨kept, some kept, empty _ half ⟨.null, by simp, bad⟩ kept⟩,
    overflows, failed overflows⟩

/-- A number beyond all numbers in a file is a failure, though the file holds a document. -/
theorem load_endless_fails : load (some (file [endless])) = .error .integerTooLarge := by
  have entries : entries? (file [endless]) = some [endless] :=
    entries?_file (by simpa using legible_endless)
  have failed : [endless].mapM Sample.ofJson = .error .integerTooLarge := by
    rw [mapM_eq_error_iff, stopsAt_cons]
    exact Or.inl ofJson_endless
  rw [load_eq, entries, Option.elim_some, failed]
  rfl

end Track

end Screencast
