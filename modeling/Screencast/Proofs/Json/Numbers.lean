import Screencast.Json.Reader
import Screencast.Json.Writer
import Screencast.Proofs.Number.ReadBack

/-!
Numbers in a JSON text: what is written is read to its end, and with the same value.
-/

namespace Screencast.Json

open Shortest Text Machine

def Ends (rest : List Char) : Prop :=
  ∀ c ∈ rest.head?, c = ',' ∨ c = ']' ∨ c = '\x7d' ∨ c = '\n'

theorem ends_nil : Ends [] :=
  fun _ none => nomatch none

namespace Reader

variable {rest ds : List Char} {parts : Parts}

theorem span_digits (digits : ∀ c ∈ ds, c.isDigit = true)
    (outside : ∀ c ∈ rest.head?, c.isDigit = false) :
    (ds ++ rest).takeWhile isDigit = ds ∧ (ds ++ rest).dropWhile isDigit = rest :=
  span_append digits outside

theorem integerPart_append (some : ds ≠ []) (digits : ∀ c ∈ ds, c.isDigit = true)
    (noughts : ds = ['0'] ∨ ∀ c ∈ ds.head?, c ≠ '0')
    (outside : ∀ c ∈ rest.head?, c.isDigit = false) :
    integerPart (ds ++ rest) = Option.some (ds, rest) := by
  rcases noughts with rfl | first
  · rfl
  · obtain ⟨taken, left⟩ := span_digits digits outside
    obtain ⟨c, others, rfl⟩ := List.exists_cons_of_ne_nil some
    unfold integerPart
    split
    · next nought =>
      cases nought
      exact absurd rfl (first '0' rfl)
    · rw [taken, left]

theorem fractionPart_append (plain : parts.Plain)
    (outside : ∀ c ∈ rest.head?, c.isDigit = false ∧ c ≠ '.') :
    fractionPart (parts.fractionChars ++ rest) = (parts.fractionChars, rest) := by
  unfold Parts.fractionChars
  by_cases none : parts.fraction = []
  · rw [none, List.isEmpty_nil, if_pos rfl, List.nil_append]
    unfold fractionPart
    split
    · next pointed => exact absurd rfl (outside '.' (by simp)).2
    · rfl
  · obtain ⟨taken, left⟩ := span_digits plain.fraction fun c first => (outside c first).1
    rw [List.isEmpty_eq_false_iff.mpr none, if_neg (by decide), List.cons_append]
    unfold fractionPart
    simp only [taken, left]

theorem powerPart_append (plain : parts.Plain)
    (outside : ∀ c ∈ rest.head?, c.isDigit = false ∧ c ≠ 'e' ∧ c ≠ 'E') :
    powerPart (parts.powerChars ++ rest) = (parts.powerChars, rest) := by
  obtain ⟨whole, fraction, power⟩ := parts
  cases power with
  | none =>
    unfold Parts.powerChars powerPart
    cases rest with
    | nil => rfl
    | cons c rest =>
      obtain ⟨-, lower, upper⟩ := outside c rfl
      simp [lower, upper]
  | some power =>
    obtain ⟨negative, digits⟩ := power
    obtain ⟨filled, figures⟩ := plain.power _ rfl
    obtain ⟨taken, left⟩ := span_digits figures fun c first => (outside c first).1
    unfold Parts.powerChars powerPart
    cases negative <;> simp [taken, left]

theorem Ends.outside (ends : Ends rest) :
    ∀ c ∈ rest.head?, c.isDigit = false ∧ c ≠ '.' ∧ c ≠ 'e' ∧ c ≠ 'E' := by
  intro c first
  rcases ends c first with rfl | rfl | rfl | rfl <;> decide

theorem outside_powerChars (parts : Parts)
    (outside : ∀ c ∈ rest.head?, c.isDigit = false ∧ c ≠ '.') :
    ∀ c ∈ (parts.powerChars ++ rest).head?, c.isDigit = false ∧ c ≠ '.' := by
  unfold Parts.powerChars
  cases parts.power with
  | none => exact outside
  | some power =>
    rintro c ⟨⟩
    decide

theorem outside_fractionChars (parts : Parts)
    (outside : ∀ c ∈ rest.head?, c.isDigit = false ∧ c ≠ '.') :
    ∀ c ∈ (parts.fractionChars ++ (parts.powerChars ++ rest)).head?, c.isDigit = false := by
  unfold Parts.fractionChars
  split
  · exact fun c first => (outside_powerChars parts outside c first).1
  · rintro c ⟨⟩
    decide

/-- The value that a number's text stands for: a whole number if it has neither fraction nor
power. -/
def meaning (text : List Char) (whole : Bool) : Except Failure Json :=
  if whole then (NumberText.toInteger (String.ofList text)).map .int
  else
    match NumberText.toFloat? text with
    | some x => .ok (.float x)
    | none => .error .invalidJson

def unsigned (mark s : List Char) : Except Failure (Json × List Char) :=
  match integerPart s with
  | none => .error .invalidJson
  | some (whole, s) =>
    let (fraction, s) := fractionPart s
    let (power, s) := powerPart s
    let text := mark ++ whole ++ fraction ++ power
    if fraction.isEmpty && power.isEmpty then do
      let n ← NumberText.toInteger (String.ofList text)
      pure (.int n, s)
    else
      match NumberText.toFloat? text with
      | some x => .ok (.float x, s)
      | none => .error .invalidJson

theorem number_minus (s : List Char) : number ('-' :: s) = unsigned ['-'] s :=
  rfl

theorem number_of_ne {c : Char} (plus : c ≠ '-') (s : List Char) :
    number (c :: s) = unsigned [] (c :: s) := by
  unfold number unsigned
  split
  next mark rest same =>
  split at same
  · next minus =>
    cases minus
    exact absurd rfl plus
  · cases same
    rfl

theorem unsigned_append (plain : parts.Plain)
    (noughts : parts.whole = ['0'] ∨ ∀ c ∈ parts.whole.head?, c ≠ '0') (ends : Ends rest)
    (mark : List Char) :
    unsigned mark (parts.chars ++ rest) =
      (meaning (mark ++ parts.chars)
        (parts.fractionChars.isEmpty && parts.powerChars.isEmpty)).map (·, rest) := by
  have outside := Ends.outside ends
  have power := powerPart_append plain fun c first => ⟨(outside c first).1, (outside c first).2.2⟩
  have fraction := fractionPart_append plain
    (outside_powerChars parts fun c first => ⟨(outside c first).1, (outside c first).2.1⟩)
  have whole := integerPart_append plain.some_whole plain.whole noughts
    (outside_fractionChars parts fun c first => ⟨(outside c first).1, (outside c first).2.1⟩)
  unfold unsigned
  rw [Parts.chars, List.append_assoc, List.append_assoc, whole]
  dsimp only
  rw [fraction]
  dsimp only
  rw [power, ← List.append_assoc, ← List.append_assoc]
  unfold meaning
  dsimp only
  generalize mark ++ parts.whole ++ parts.fractionChars ++ parts.powerChars = text
  split
  · cases NumberText.toInteger (String.ofList text) <;> rfl
  · cases NumberText.toFloat? text <;> rfl

theorem number_append (plain : parts.Plain)
    (noughts : parts.whole = ['0'] ∨ ∀ c ∈ parts.whole.head?, c ≠ '0') (ends : Ends rest)
    (negative : Bool) :
    number (signChars negative ++ parts.chars ++ rest) =
      (meaning (signChars negative ++ parts.chars)
        (parts.fractionChars.isEmpty && parts.powerChars.isEmpty)).map (·, rest) := by
  rw [← unsigned_append plain noughts ends]
  cases negative with
  | true => exact number_minus _
  | false =>
    obtain ⟨c, others, same, digit⟩ := NumberText.exists_digit plain
    change number (parts.chars ++ rest) = unsigned [] (parts.chars ++ rest)
    rw [same]
    exact number_of_ne (NumberText.ne_of_isDigit digit (by decide)) _

theorem number_float {x : Float} {negative : Bool} (writes : Writes x negative parts)
    (ends : Ends rest) : number (Shortest.chars x ++ rest) = .ok (.float x, rest) := by
  have broken : (parts.fractionChars.isEmpty && parts.powerChars.isEmpty) = false := by
    rw [Bool.and_eq_false_iff]
    apply writes.fractional.imp
    · intro fraction
      unfold Parts.fractionChars
      rw [List.isEmpty_eq_false_iff.mpr fraction]
      rfl
    · intro power
      unfold Parts.powerChars
      cases same : parts.power with
      | none => exact absurd same power
      | some power => rfl
  rw [writes.chars, number_append writes.plain writes.whole ends, broken, meaning,
    if_neg (by decide), NumberText.toFloat?_parts writes.plain, writes.value]
  rfl

theorem toInteger_signChars (plain : (⟨ds, [], none⟩ : Parts).Plain) (short : ds.length ≤ 4300)
    (negative : Bool) : NumberText.toInteger (String.ofList (signChars negative ++ ds)) =
      .ok (Exact.signed negative (Nat.ofDigitChars 10 ds 0)) := by
  have chars : (⟨ds, [], none⟩ : Parts).chars = ds := List.append_nil ds
  have signed := NumberText.sign_stripNumber plain negative
  rw [chars] at signed
  unfold NumberText.toInteger
  rw [String.toList_ofList, signed]
  dsimp only
  rw [NumberText.natural?_digits plain.some_whole plain.whole]
  dsimp only
  rw [List.length_map, if_neg (by omega), NumberText.ofDigits_map]

theorem intChars_eq (n : Int) :
    intChars n = signChars (n < 0) ++ Nat.toDigits 10 n.natAbs := by
  unfold intChars signChars
  by_cases negative : n < 0 <;> simp [negative]

theorem number_int {n : Int} (short : (Nat.toDigits 10 n.natAbs).length ≤ 4300)
    (ends : Ends rest) : number (intChars n ++ rest) = .ok (.int n, rest) := by
  have plain : (⟨Nat.toDigits 10 n.natAbs, [], none⟩ : Parts).Plain :=
    ⟨Nat.toDigits_ne_nil, fun c => isDigit_of_mem_toDigits, by simp, by simp⟩
  have noughts : Nat.toDigits 10 n.natAbs = ['0'] ∨
      ∀ c ∈ (Nat.toDigits 10 n.natAbs).head?, c ≠ '0' := by
    rcases Nat.eq_zero_or_pos n.natAbs with zero | pos
    · rw [zero]
      exact Or.inl (Nat.toDigits_zero 10)
    · exact Or.inr (head_toDigits_ne_nought pos)
  have chars : (⟨Nat.toDigits 10 n.natAbs, [], none⟩ : Parts).chars = Nat.toDigits 10 n.natAbs :=
    List.append_nil _
  have read := number_append plain noughts ends (n < 0)
  rw [chars] at read
  rw [intChars_eq, read]
  change ((NumberText.toInteger (String.ofList _)).map _).map _ = _
  rw [toInteger_signChars plain short, Nat.ofDigitChars_ten_toDigits, Exact.signed_natAbs]
  rfl

end Reader

end Screencast.Json
