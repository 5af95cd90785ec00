import Mathlib.Data.List.DropRight
import Mathlib.Tactic.IntervalCases
import Screencast.Proofs.Curve.Reading
import Screencast.Proofs.Number.Places

/-!
Decimals without noughts at the end of the fraction. Trimming a decimal is the same as taking the
noughts, and then the point, off the right end of its text: the whole part keeps its noughts, and
the text says the same number as before.
-/

namespace Screencast

theorem Text.getLast?_toDigits (n : Nat) :
    (Nat.toDigits 10 n).getLast? = some (n % 10).digitChar := by
  rcases Nat.lt_or_ge n 10 with small | large
  · rw [Nat.toDigits_of_lt_base small, Nat.mod_eq_of_lt small]
    rfl
  · rw [Nat.toDigits_of_base_le (by decide) large, List.getLast?_concat]

theorem Text.digitChar_eq_zero_iff {n : Nat} (small : n < 10) : n.digitChar = '0' ↔ n = 0 := by
  interval_cases n <;> decide

namespace Decimal

theorem paddedDigits_succ {width : Nat} (positive : 0 < width) (n : Nat) :
    paddedDigits (width + 1) n = paddedDigits width (n / 10) ++ [(n % 10).digitChar] := by
  unfold paddedDigits
  rcases Nat.lt_or_ge n 10 with small | large
  · rw [Nat.toDigits_of_lt_base small, Nat.mod_eq_of_lt small, Nat.div_eq_of_lt small,
      Nat.toDigits_zero]
    obtain ⟨width, rfl⟩ := Nat.exists_eq_add_of_le' positive
    simp [← List.replicate_succ']
  · rw [Nat.toDigits_of_base_le (by decide) large, ← List.append_assoc]
    simp

variable {negative : Bool} {digits places : Nat}

theorem whole_tens :
    whole ⟨negative, digits, places + 1⟩ = whole ⟨negative, digits / 10, places⟩ := by
  unfold whole
  dsimp only
  rw [tenTo_succ, Nat.mul_comm, Nat.div_div_eq_div_mul]

theorem fraction_tens (positive : 0 < places) : fraction ⟨negative, digits, places + 1⟩ =
    fraction ⟨negative, digits / 10, places⟩ ++ [(digits % 10).digitChar] := by
  unfold fraction
  dsimp only
  rw [paddedDigits_succ positive, tenTo_succ, Nat.mul_comm, Nat.mod_mul_right_div_self,
    Nat.mod_mul_right_mod]

theorem getLast?_fraction (positive : 0 < places) :
    (fraction ⟨negative, digits, places⟩).getLast? = some (digits % 10).digitChar := by
  obtain ⟨places, rfl⟩ := Nat.exists_eq_add_of_le' positive
  unfold fraction paddedDigits
  dsimp only
  rw [List.getLast?_append, Text.getLast?_toDigits, Option.some_or, tenTo_succ, Nat.mul_comm,
    Nat.mod_mul_right_mod]

theorem chars_zero_places :
    chars ⟨negative, digits, 0⟩ = (if negative then ['-'] else []) ++ Nat.toDigits 10 digits := by
  simp [chars, whole, tenTo]

theorem chars_succ_places : chars ⟨negative, digits, places + 1⟩ =
    (if negative then ['-'] else []) ++ whole ⟨negative, digits, places + 1⟩ ++
      '.' :: fraction ⟨negative, digits, places + 1⟩ := by
  simp [chars]

theorem trim_of_tens (tens : digits % 10 = 0) :
    trim ⟨negative, digits, places + 1⟩ = trim ⟨negative, digits / 10, places⟩ := by
  simp [trim, trimDigits, tens]

theorem trim_of_not_tens (notTens : digits % 10 ≠ 0) :
    trim ⟨negative, digits, places + 1⟩ = ⟨negative, digits, places + 1⟩ := by
  simp [trim, trimDigits, notTens]

/-- A text without the noughts at its right end, and without the point if one stands there then. -/
def stripped (text : List Char) : List Char :=
  (text.rdropWhile (· == '0')).rdropWhile (· == '.')

theorem stripped_concat_zero (text : List Char) : stripped (text ++ ['0']) = stripped text := by
  rw [stripped, List.rdropWhile_concat_pos _ _ _ (by decide)]
  rfl

theorem stripped_eq_self {text : List Char} {last : Char} (ends : text.getLast? = some last)
    (noZero : last ≠ '0') (noPoint : last ≠ '.') : stripped text = text := by
  obtain ⟨front, rfl⟩ := List.getLast?_eq_some_iff.mp ends
  rw [stripped, List.rdropWhile_concat_neg _ _ _ (by simpa using noZero),
    List.rdropWhile_concat_neg _ _ _ (by simpa using noPoint)]

theorem stripped_concat_point {text : List Char} {last : Char} (ends : text.getLast? = some last)
    (noPoint : last ≠ '.') : stripped (text ++ ['.']) = text := by
  obtain ⟨front, rfl⟩ := List.getLast?_eq_some_iff.mp ends
  rw [stripped, List.rdropWhile_concat_neg _ _ _ (by decide),
    List.rdropWhile_concat_pos _ _ _ (by decide),
    List.rdropWhile_concat_neg _ _ _ (by simpa using noPoint)]

theorem digitChar_ne_point (n : Nat) : (n % 10).digitChar ≠ '.' := by
  intro isPoint
  have digit := Text.isDigit_of_mem_toDigits (List.mem_of_getLast? (Text.getLast?_toDigits n))
  rw [isPoint] at digit
  cases digit

theorem getLast?_chars_zero_places :
    (chars ⟨negative, digits, 0⟩).getLast? = some (digits % 10).digitChar := by
  rw [chars_zero_places, List.getLast?_append, Text.getLast?_toDigits, Option.some_or]

theorem getLast?_chars (positive : 0 < places) :
    (chars ⟨negative, digits, places⟩).getLast? = some (digits % 10).digitChar := by
  obtain ⟨places, rfl⟩ := Nat.exists_eq_add_of_le' positive
  rw [chars_succ_places, List.getLast?_append, List.getLast?_cons, getLast?_fraction positive]
  rfl

theorem chars_trim (d : Decimal) (some_place : 0 < d.places) : d.trim.chars = stripped d.chars := by
  obtain ⟨negative, digits, places⟩ := d
  induction places generalizing digits with
  | zero => cases some_place
  | succ places ih =>
    by_cases tens : digits % 10 = 0
    · have nought : (digits % 10).digitChar = '0' := by rw [tens]; rfl
      rw [trim_of_tens tens]
      rcases Nat.eq_zero_or_pos places with rfl | positive
      · -- With the last place the point goes, and the whole part ends with a figure.
        have text : chars ⟨negative, digits, 0 + 1⟩ =
            chars ⟨negative, digits / 10, 0⟩ ++ ['.'] ++ ['0'] := by
          have place : fraction ⟨negative, digits, 0 + 1⟩ = ['0'] := by
            have none : digits % tenTo (0 + 1) = 0 := tens
            rw [fraction, none]
            rfl
          rw [chars_succ_places, place, chars_zero_places, whole_tens]
          simp [whole, tenTo]
        rw [text, stripped_concat_zero,
          stripped_concat_point getLast?_chars_zero_places (digitChar_ne_point _)]
        rfl
      · have text : chars ⟨negative, digits, places + 1⟩ =
            chars ⟨negative, digits / 10, places⟩ ++ ['0'] := by
          rw [chars_succ_places, whole_tens, fraction_tens positive, nought]
          obtain ⟨places, rfl⟩ := Nat.exists_eq_add_of_le' positive
          rw [chars_succ_places]
          simp
        rw [text, stripped_concat_zero]
        exact ih (digits / 10) positive
    · rw [trim_of_not_tens tens, stripped_eq_self (getLast?_chars some_place) ?_
        (digitChar_ne_point _)]
      rwa [Ne, Text.digitChar_eq_zero_iff (Nat.mod_lt _ (by decide))]

theorem toRat_trim (d : Decimal) : d.trim.toRat = d.toRat := by
  have value := trimDigits_value d.digits d.places
  unfold toRat
  rw [Rat.mkRat_eq_iff (tenTo_pos _).ne' (tenTo_pos _).ne']
  change Exact.signed d.negative (trimDigits d.digits d.places).1 * (tenTo d.places : Int) =
    Exact.signed d.negative d.digits * (tenTo (trimDigits d.digits d.places).2 : Int)
  have scaled (n k : Nat) :
      Exact.signed d.negative n * (k : Int) = Exact.signed d.negative (n * k) := by
    cases d.negative <;> simp [Exact.signed]
  rw [scaled, scaled, value]

theorem places_trim_le (d : Decimal) : d.trim.places ≤ d.places := by
  obtain ⟨negative, digits, places⟩ := d
  induction places generalizing digits with
  | zero => exact Nat.le_refl 0
  | succ places ih =>
    by_cases tens : digits % 10 = 0
    · rw [trim_of_tens tens]
      exact (ih (digits / 10)).trans (Nat.le_succ places)
    · rw [trim_of_not_tens tens]

def numberOf? (text : List Char) : Option Rat :=
  match Formula.signed text with
  | some (written, []) => some written.value
  | _ => none

theorem numberOf?_chars (d : Decimal) : numberOf? d.chars = some d.toRat := by
  have ends : Formula.Separate [] := nofun
  obtain ⟨negative, digits, places⟩ := d
  cases places with
  | zero =>
    have read := Formula.unsigned_toDigits negative digits ends
    rw [List.append_nil] at read
    have begins : ∀ c ∈ (Nat.toDigits 10 digits).head?, c.isDigit = true := fun c first =>
      Text.isDigit_of_mem_toDigits (List.mem_of_head? first)
    rw [numberOf?, chars_zero_places, Formula.signed_append negative begins, read]
    refine congrArg some ?_
    change ((Exact.signed negative digits : Int) : Rat) = mkRat (Exact.signed negative digits) 1
    rw [Rat.mkRat_one]
  | succ places =>
    have legible : (Written.numeral (.decimal ⟨negative, digits, places + 1⟩)).Legible :=
      Nat.succ_pos places
    obtain ⟨minus, text, isText, begins, read⟩ := Formula.exists_unsigned legible ends
    have chars : chars ⟨negative, digits, places + 1⟩ =
        (if minus then ['-'] else []) ++ text := by
      rw [← isText, List.append_nil]
      exact String.toList_ofList.symm
    rw [numberOf?, chars, Formula.signed_append minus begins, read]
    rfl

/-- Whether a text is a decimal that is as short as can be: a minus or none, figures, and if there
is a point then places behind it, three at most, of which the last is no nought. -/
def Concise (text : List Char) : Prop :=
  ∃ minus whole fraction : List Char,
    text = minus ++ whole ++ (if fraction = [] then [] else '.' :: fraction) ∧
      (minus = [] ∨ minus = ['-']) ∧
      whole ≠ [] ∧ (∀ c ∈ whole, c.isDigit = true) ∧
      fraction.length ≤ 3 ∧ (∀ c ∈ fraction, c.isDigit = true) ∧ fraction.getLast? ≠ some '0'

theorem concise_chars_trim {d : Decimal} (places : d.places ≤ 3) : Concise d.trim.chars := by
  have fewer := (places_trim_le d).trans places
  have minus : (if d.negative then ['-'] else []) = [] ∨
      (if d.negative then ['-'] else []) = ['-'] := by
    cases d.negative <;> simp
  have figures : ∀ c ∈ d.trim.whole, c.isDigit = true := fun _ => Text.isDigit_of_mem_toDigits
  rcases Nat.eq_zero_or_pos d.trim.places with none | some_place
  · refine ⟨_, d.trim.whole, [], ?_, minus, Nat.toDigits_ne_nil, figures, by simp, nofun, nofun⟩
    rw [chars, none]
    rfl
  · have length := length_fraction some_place
    have nonempty : d.trim.fraction ≠ [] := List.ne_nil_of_length_pos (length ▸ some_place)
    refine ⟨_, d.trim.whole, d.trim.fraction, ?_, minus, Nat.toDigits_ne_nil, figures,
      length ▸ fewer, fun _ => isDigit_of_mem_fraction, ?_⟩
    · rw [chars, if_neg some_place.ne', if_neg nonempty]
      rfl
    · have last : d.trim.fraction.getLast? = some (d.trim.digits % 10).digitChar :=
        getLast?_fraction some_place
      have kept := trimDigits_ends d.digits d.places some_place
      rw [last, Ne, Option.some.injEq, Text.digitChar_eq_zero_iff (Nat.mod_lt _ (by decide))]
      exact kept

end Decimal

end Screencast
