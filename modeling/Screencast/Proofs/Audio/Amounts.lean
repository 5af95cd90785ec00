import Screencast.Audio.Segment
import Screencast.Proofs.Number.Trimmed

/-!
The times and the volumes that stand in the filters of a mix, counted exactly. Each is written as
short as three places allow, says the number rounded to these, and keeps the order of the numbers.
-/

namespace Screencast

open Decimal

/-- How a number is written with three places at most. -/
structure Prints (text : String) (x : Rat) : Prop where
  concise : Concise text.toList
  value : numberOf? text.toList = some (roundTo 3 x)
  /-- It is the text with three places, stripped of noughts at its end, and that says the same. -/
  stripped : text.toList = stripped (Number.toPlaces 3 x).toText.toList
  unstripped : numberOf? (Number.toPlaces 3 x).toText.toList = some (roundTo 3 x)

theorem exists_decimal_of_toPlaces (x : Rat) :
    ∃ d : Decimal, Number.toPlaces 3 x = .decimal d ∧ d.places = 3 ∧ d.toRat = roundTo 3 x := by
  obtain ⟨written, made, value⟩ := Written.exists_of_roundTo x (by decide : (0 : Int) ≤ 3)
  refine ⟨_, rfl, rfl, ?_⟩
  cases made
  exact value

theorem prints_trim (x : Rat) : Prints (Number.toPlaces 3 x).trim.toText x := by
  obtain ⟨d, written, places, value⟩ := exists_decimal_of_toPlaces x
  have text : (Number.toPlaces 3 x).trim.toText.toList = d.trim.chars := by
    rw [written]
    exact String.toList_ofList
  have fixed : (Number.toPlaces 3 x).toText.toList = d.chars := by
    rw [written]
    exact String.toList_ofList
  constructor
  · rw [text]
    exact concise_chars_trim places.le
  · rw [text, numberOf?_chars, toRat_trim, value]
  · rw [text, fixed, chars_trim d (by omega)]
  · rw [fixed, numberOf?_chars, value]

theorem prints_secondsText (ms : Rat) : Prints (secondsText ms) (ms / 1000) :=
  prints_trim (ms / 1000)

theorem prints_volumeText (volume : Rat) : Prints (volumeText volume) volume :=
  prints_trim volume

theorem roundTo_milliseconds (n : Int) : roundTo 3 ((n : Rat) / 1000) = n / 1000 := by
  have whole : (n : Rat) / 1000 * 10 ^ 3 = n := by
    rw [div_mul_eq_mul_div, div_eq_iff (by norm_num)]
    norm_num
  rw [roundTo, whole, Rounding.nearest_intCast]
  norm_num

/-- Times and volumes are written as short as three places allow and say the numbers rounded to
these. So a greater number is never written as a smaller one, and whole numbers of milliseconds
that differ are written differently. -/
theorem amounts_printed :
    (∀ ms : Rat, Prints (secondsText ms) (ms / 1000)) ∧
      (∀ volume : Rat, Prints (volumeText volume) volume) ∧
      (∀ x y : Rat, x ≤ y → ∃ a b, a ≤ b ∧
        numberOf? (secondsText x).toList = some a ∧ numberOf? (secondsText y).toList = some b) ∧
      (∀ x y : Rat, x ≤ y → ∃ a b, a ≤ b ∧
        numberOf? (volumeText x).toList = some a ∧ numberOf? (volumeText y).toList = some b) ∧
      ∀ m n : Int, m ≠ n → secondsText (m : Rat) ≠ secondsText (n : Rat) := by
  refine ⟨prints_secondsText, prints_volumeText, ?_, ?_, ?_⟩
  · intro x y le
    have scaled : x / 1000 ≤ y / 1000 := div_le_div_of_nonneg_right le (by norm_num)
    exact ⟨_, _, roundTo_mono 3 scaled, (prints_secondsText x).value, (prints_secondsText y).value⟩
  · intro x y le
    exact ⟨_, _, roundTo_mono 3 le, (prints_volumeText x).value, (prints_volumeText y).value⟩
  · intro m n differ same
    have first := (prints_secondsText m).value
    have second := (prints_secondsText n).value
    rw [same, second, roundTo_milliseconds, roundTo_milliseconds, Option.some.injEq,
      div_left_inj' (by norm_num), Int.cast_inj] at first
    exact differ first.symm

/-- The whole part keeps its noughts, and what is rounded away may leave a sign. -/
example : secondsText (10000 : Rat) = "10" ∧ secondsText (1500 : Rat) = "1.5" ∧
    volumeText (-1 / 10000 : Rat) = "-0" := by decide +kernel

end Screencast
