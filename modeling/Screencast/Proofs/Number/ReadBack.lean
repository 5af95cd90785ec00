import Screencast.Number.Reader
import Screencast.Proofs.Number.Shortest
import Screencast.Proofs.Text.Figures

/-!
Every number is read back from its shortest text. The text has parts, digits before and behind a
point and a power of ten, of which the reader makes the decimal that was written.
-/

namespace Screencast

open Float.Model.UnpackedFloat Rounding Machine Text

/-- The parts of a written number: digits, behind a point digits again, and a power of ten that may
be negative. -/
structure Parts where
  whole : List Char
  fraction : List Char
  power : Option (Bool × List Char)

namespace Parts

def fractionChars (parts : Parts) : List Char :=
  if parts.fraction.isEmpty then [] else '.' :: parts.fraction

def powerChars (parts : Parts) : List Char :=
  match parts.power with
  | none => []
  | some (negative, digits) => 'e' :: (if negative then '-' else '+') :: digits

def chars (parts : Parts) : List Char :=
  parts.whole ++ (parts.fractionChars ++ parts.powerChars)

def digits (parts : Parts) : Nat :=
  Nat.ofDigitChars 10 (parts.whole ++ parts.fraction) 0

def exponent (parts : Parts) : Int :=
  (match parts.power with
    | none => 0
    | some (negative, digits) => Exact.signed negative (Nat.ofDigitChars 10 digits 0)) -
    parts.fraction.length

structure Plain (parts : Parts) : Prop where
  some_whole : parts.whole ≠ []
  whole : ∀ c ∈ parts.whole, c.isDigit = true
  fraction : ∀ c ∈ parts.fraction, c.isDigit = true
  power : ∀ power ∈ parts.power, power.2 ≠ [] ∧ ∀ c ∈ power.2, c.isDigit = true

end Parts

def signChars (negative : Bool) : List Char :=
  if negative then ['-'] else []

namespace NumberText

variable {s rest ds : List Char}

theorem digitValue?_of_isDigit {c : Char} (digit : c.isDigit = true) :
    digitValue? c = some (c.toNat - 48) := by
  have inside : '0' ≤ c ∧ c ≤ '9' := by
    unfold Char.isDigit at digit
    simp only [Bool.and_eq_true, decide_eq_true_eq] at digit
    exact digit
  exact if_pos inside

def Halts (rest : List Char) : Prop :=
  ∀ c ∈ rest.head?, digitValue? c = none ∧ c ≠ '_'

theorem digitRun_of_halts (halts : Halts rest) (afterDigit : Bool) :
    digitRun afterDigit rest = ([], rest) := by
  cases rest with
  | nil => rfl
  | cons c rest =>
    obtain ⟨none, other⟩ := halts c rfl
    simp [digitRun, none, other]

theorem digitRun_append (digits : ∀ c ∈ ds, c.isDigit = true) (halts : Halts rest)
    (afterDigit : Bool) :
    digitRun afterDigit (ds ++ rest) = (ds.map fun c => c.toNat - 48, rest) := by
  induction ds generalizing afterDigit with
  | nil => exact digitRun_of_halts halts afterDigit
  | cons c ds ih =>
    have first := digitValue?_of_isDigit (digits c (by simp))
    have others := ih (fun d member => digits d (List.mem_cons_of_mem c member)) true
    simp [digitRun, first, others]

theorem ofDigits_map (ds : List Char) :
    ofDigits (ds.map fun c => c.toNat - 48) = Nat.ofDigitChars 10 ds 0 := by
  rw [ofDigits, Nat.ofDigitChars_eq_foldl, List.foldl_map]
  rfl

theorem halts_nil : Halts [] :=
  fun _ none => nomatch none

theorem natural?_digits (some : ds ≠ []) (digits : ∀ c ∈ ds, c.isDigit = true) :
    natural? ds = Option.some (ds.map fun c => c.toNat - 48) := by
  have run := digitRun_append digits halts_nil false
  rw [List.append_nil] at run
  unfold natural? NumberText.digits
  rw [run]
  cases ds with
  | nil => exact absurd rfl some
  | cons c ds => rfl

section Parts

variable {parts : Parts}

theorem halts_powerChars (parts : Parts) : Halts parts.powerChars := by
  unfold Parts.powerChars
  cases parts.power with
  | none => exact halts_nil
  | some power =>
    rintro c ⟨⟩
    decide

theorem exponent?_powerChars (plain : parts.Plain) :
    exponent? parts.powerChars = some (parts.exponent + parts.fraction.length) := by
  obtain ⟨whole, fraction, power⟩ := parts
  have digits := plain.power
  unfold Parts.powerChars Parts.exponent
  rw [Int.sub_add_cancel]
  cases power with
  | none => rfl
  | some power =>
    obtain ⟨negative, ds⟩ := power
    obtain ⟨some, figures⟩ := digits _ rfl
    have natural := natural?_digits some figures
    dsimp only
    rw [← ofDigits_map ds]
    cases negative <;>
    · change (natural? ds).map _ = _
      rw [natural]
      rfl

theorem unsigned?_chars (plain : parts.Plain) :
    unsigned? parts.chars = some (parts.digits, parts.exponent) := by
  have power := exponent?_powerChars plain
  have halts := halts_powerChars parts
  have whole : ∀ {rest}, Halts rest → NumberText.digits (parts.whole ++ rest)
      = (parts.whole.map fun c => c.toNat - 48, rest) :=
    fun halts => digitRun_append plain.whole halts false
  have some : (parts.whole.map fun c => c.toNat - 48).isEmpty = false := by
    simpa using plain.some_whole
  unfold unsigned? Parts.chars Parts.fractionChars
  by_cases none : parts.fraction = []
  · have point : ∀ rest, parts.powerChars ≠ '.' :: rest := by
      unfold Parts.powerChars
      cases parts.power <;> simp
    rw [none, List.isEmpty_nil, if_pos rfl, List.nil_append, whole halts]
    dsimp only
    split
    · next pointed => exact absurd pointed (point _)
    · rw [some, Bool.false_and, if_neg (by decide), power, Parts.digits, none, ← ofDigits_map]
      simp
  · have pointed : Halts ('.' :: (parts.fraction ++ parts.powerChars)) := by
      rintro c ⟨⟩
      decide
    have behind : NumberText.digits (parts.fraction ++ parts.powerChars)
        = (parts.fraction.map fun c => c.toNat - 48, parts.powerChars) :=
      digitRun_append plain.fraction halts false
    rw [List.isEmpty_eq_false_iff.mpr none, if_neg (by decide), List.cons_append, whole pointed]
    simp only [behind]
    rw [some, Bool.false_and, if_neg (by decide), power, Parts.digits, ← ofDigits_map,
      List.map_append, List.length_map]
    simp

end Parts

theorem dropRight_eq_self {out : Char → Bool} (inside : ∀ c ∈ s, out c = false) :
    dropRight out s = s := by
  induction s with
  | nil => rfl
  | cons c s ih =>
    have first := inside c (by simp)
    have others := ih fun d member => inside d (List.mem_cons_of_mem c member)
    unfold dropRight at others ⊢
    rw [List.foldr_cons, others, first, Bool.and_false, if_neg (by decide)]

theorem trim_eq_self {out : Char → Bool} (inside : ∀ c ∈ s, out c = false) :
    trim out s = s := by
  have kept : s.dropWhile out = s := by
    cases s with
    | nil => rfl
    | cons c s => exact List.dropWhile_cons_of_neg (by simp [inside c (by simp)])
  rw [trim, kept, dropRight_eq_self inside]

theorem word?_eq_none (unlettered : ∀ c ∈ s.head?, c.toLower ≠ 'i' ∧ c.toLower ≠ 'n') :
    word? s = none := by
  have first : ∀ c ∈ (s.map Char.toLower).head?, c ≠ 'i' ∧ c ≠ 'n' := by
    intro c found
    rw [List.head?_map] at found
    obtain ⟨d, isFirst, rfl⟩ := Option.mem_map.mp found
    exact unlettered d isFirst
  have other : ∀ c rest, c = 'i' ∨ c = 'n' →
      String.ofList (s.map Char.toLower) ≠ String.ofList (c :: rest) := by
    intro c rest letter same
    rw [String.ofList_injective same] at first
    rcases letter with rfl | rfl
    · exact (first _ rfl).1 rfl
    · exact (first _ rfl).2 rfl
  unfold word?
  split
  · next same => exact absurd same (other 'i' ['n', 'f'] (Or.inl rfl))
  · next same =>
    exact absurd same (other 'i' ['n', 'f', 'i', 'n', 'i', 't', 'y'] (Or.inl rfl))
  · next same => exact absurd same (other 'n' ['a', 'n'] (Or.inr rfl))
  · rfl

section Parts

variable {parts : Parts}

theorem code_of_isDigit {c : Char} (digit : c.isDigit = true) : 48 ≤ c.toNat ∧ c.toNat ≤ 57 := by
  unfold Char.isDigit at digit
  simp only [Bool.and_eq_true, decide_eq_true_eq] at digit
  exact digit

theorem ne_of_isDigit {c other : Char} (digit : c.isDigit = true)
    (notDigit : other.isDigit = false) :
    c ≠ other := by
  rintro rfl
  rw [digit] at notDigit
  cases notDigit

theorem toLower_of_isDigit {c : Char} (digit : c.isDigit = true) : c.toLower = c := by
  have bounds := code_of_isDigit digit
  apply dif_neg
  rintro ⟨capital, -⟩
  have code : 65 ≤ c.toNat := UInt32.le_iff_toNat_le.mp capital
  omega

theorem isNumberBlank_of_isDigit {c : Char} (digit : c.isDigit = true) :
    isNumberBlank c = false := by
  obtain ⟨lower, upper⟩ := code_of_isDigit digit
  unfold isNumberBlank isBlank
  simp only [Bool.and_eq_false_iff]
  left
  simp
  omega

theorem isNumberBlank_of_mem (plain : parts.Plain) (negative : Bool) :
    ∀ c ∈ signChars negative ++ parts.chars, isNumberBlank c = false := by
  obtain ⟨whole, fraction, power⟩ := parts
  intro c member
  rcases List.mem_append.mp member with sign | member
  · cases negative with
    | false => cases sign
    | true =>
      rw [List.mem_singleton.mp sign]
      decide
  rcases List.mem_append.mp member with digit | member
  · exact isNumberBlank_of_isDigit (plain.whole c digit)
  rcases List.mem_append.mp member with pointed | powered
  · unfold Parts.fractionChars at pointed
    split at pointed
    · cases pointed
    · rcases List.mem_cons.mp pointed with rfl | digit
      · decide
      · exact isNumberBlank_of_isDigit (plain.fraction c digit)
  · cases power with
    | none => cases powered
    | some power =>
      have digits := (plain.power power rfl).2
      rcases List.mem_cons.mp powered with rfl | powered
      · decide
      · rcases List.mem_cons.mp powered with rfl | digit
        · split <;> decide
        · exact isNumberBlank_of_isDigit (digits c digit)

theorem exists_digit (plain : parts.Plain) :
    ∃ c rest, parts.chars = c :: rest ∧ c.isDigit = true := by
  obtain ⟨c, rest, same⟩ := List.exists_cons_of_ne_nil plain.some_whole
  refine ⟨c, rest ++ (parts.fractionChars ++ parts.powerChars), ?_, ?_⟩
  · rw [Parts.chars, same]
    rfl
  · exact plain.whole c (by simp [same])

theorem sign_stripNumber (plain : parts.Plain) (negative : Bool) :
    sign (stripNumber (signChars negative ++ parts.chars)) = (negative, parts.chars) := by
  obtain ⟨c, rest, same, digit⟩ := exists_digit plain
  rw [stripNumber, trim_eq_self (isNumberBlank_of_mem plain negative)]
  cases negative with
  | true => rfl
  | false =>
    change sign parts.chars = _
    rw [same]
    unfold sign
    split
    · next first =>
      cases first
      exact absurd digit (by decide)
    · next first =>
      cases first
      exact absurd digit (by decide)
    · rfl

/-- A written number is read as the decimal that its parts make. -/
theorem toFloat?_parts (plain : parts.Plain) (negative : Bool) :
    toFloat? (signChars negative ++ parts.chars) =
      some (Binary.ofDecimal negative parts.digits parts.exponent) := by
  have word : word? parts.chars = none := by
    obtain ⟨c, rest, same, digit⟩ := exists_digit plain
    apply word?_eq_none
    rw [same]
    rintro c ⟨⟩
    rw [toLower_of_isDigit digit]
    exact ⟨ne_of_isDigit digit (by decide), ne_of_isDigit digit (by decide)⟩
  unfold toFloat?
  rw [sign_stripNumber plain negative]
  dsimp only
  rw [word, unsigned?_chars plain]
  rfl

end Parts

end NumberText

namespace Shortest

section Place

variable {digits : List Char} {point : Int}

def parts (digits : List Char) (point : Int) : Parts :=
  if -4 < point ∧ point ≤ 16 then
    if point ≤ 0 then ⟨['0'], List.replicate (-point).toNat '0' ++ digits, none⟩
    else if digits.length ≤ point then
      ⟨digits ++ List.replicate (point - digits.length).toNat '0', ['0'], none⟩
    else ⟨digits.take point.toNat, digits.drop point.toNat, none⟩
  else ⟨digits.take 1, digits.drop 1,
    some (point - 1 < 0, Decimal.paddedDigits 2 (point - 1).natAbs)⟩

theorem place_eq_chars (some : digits ≠ []) : place digits point = (parts digits point).chars := by
  obtain ⟨first, rest, rfl⟩ := List.exists_cons_of_ne_nil some
  unfold place parts
  dsimp only
  split
  · split
    · simp [Parts.chars, Parts.fractionChars, Parts.powerChars]
    · split
      · simp [Parts.chars, Parts.fractionChars, Parts.powerChars]
      · next inside =>
        have behind : (first :: rest).drop point.toNat ≠ [] := by
          rw [ne_eq, List.drop_eq_nil_iff]
          omega
        simp [Parts.chars, Parts.fractionChars, Parts.powerChars, behind]
  · cases rest with
    | nil => simp [Parts.chars, Parts.fractionChars, Parts.powerChars]
    | cons second rest => simp [Parts.chars, Parts.fractionChars, Parts.powerChars]

theorem isDigit_of_mem_paddedDigits {width n : Nat} {c : Char}
    (member : c ∈ Decimal.paddedDigits width n) : c.isDigit = true := by
  rcases List.mem_append.mp member with padding | digit
  · rw [List.eq_of_mem_replicate padding]
    rfl
  · exact isDigit_of_mem_toDigits digit

theorem paddedDigits_ne_nil (width n : Nat) : Decimal.paddedDigits width n ≠ [] := by
  unfold Decimal.paddedDigits
  exact List.append_ne_nil_of_right_ne_nil _ Nat.toDigits_ne_nil

theorem isDigit_of_mem_append_noughts {figures : List Char}
    (inside : ∀ c ∈ figures, c.isDigit = true) (n : Nat) {c : Char}
    (member : c ∈ figures ∨ c ∈ List.replicate n '0') : c.isDigit = true := by
  rcases member with digit | nought
  · exact inside c digit
  · rw [List.eq_of_mem_replicate nought]
    rfl

theorem plain_parts (some : digits ≠ []) (figures : ∀ c ∈ digits, c.isDigit = true) (point : Int) :
    (parts digits point).Plain := by
  have length := List.length_pos_of_ne_nil some
  unfold parts
  split
  · split
    · refine ⟨by simp, by simp, ?_, by simp⟩
      intro c member
      exact isDigit_of_mem_append_noughts figures _ (List.mem_append.mp member).symm
    · split
      · refine ⟨by simp [some], ?_, by simp, by simp⟩
        intro c member
        exact isDigit_of_mem_append_noughts figures _ (List.mem_append.mp member)
      · next inside =>
        refine ⟨?_, ?_, ?_, by simp⟩
        · rw [ne_eq, List.take_eq_nil_iff]
          rintro (zero | empty)
          · omega
          · exact some empty
        · exact fun c member => figures c (List.mem_of_mem_take member)
        · exact fun c member => figures c (List.mem_of_mem_drop member)
  · refine ⟨?_, ?_, ?_, ?_⟩
    · rw [ne_eq, List.take_eq_nil_iff]
      rintro (zero | empty)
      · omega
      · exact some empty
    · exact fun c member => figures c (List.mem_of_mem_take member)
    · exact fun c member => figures c (List.mem_of_mem_drop member)
    · rintro power ⟨⟩
      exact ⟨paddedDigits_ne_nil _ _, fun c => isDigit_of_mem_paddedDigits⟩

theorem fraction_or_power (some : digits ≠ []) (point : Int) :
    (parts digits point).fraction ≠ [] ∨ (parts digits point).power ≠ none := by
  unfold parts
  split
  · left
    split
    · simp [some]
    · split
      · simp
      · rw [ne_eq, List.drop_eq_nil_iff]
        omega
  · right
    simp

theorem whole_parts (some : digits ≠ []) (first : ∀ c ∈ digits.head?, c ≠ '0') (point : Int) :
    (parts digits point).whole = ['0'] ∨ ∀ c ∈ (parts digits point).whole.head?, c ≠ '0' := by
  obtain ⟨d, rest, rfl⟩ := List.exists_cons_of_ne_nil some
  unfold parts
  split
  · split
    · exact Or.inl rfl
    · right
      split
      · exact first
      · obtain ⟨n, count⟩ : ∃ n, point.toNat = n + 1 := ⟨point.toNat - 1, by omega⟩
        rw [count]
        exact first
  · exact Or.inr first

theorem ofDigitChars_paddedDigits (width n : Nat) :
    Nat.ofDigitChars 10 (Decimal.paddedDigits width n) 0 = n := by
  rw [Decimal.paddedDigits, Nat.ofDigitChars_append, Nat.ofDigitChars_replicate_zero, Nat.mul_zero]
  exact Nat.ofDigitChars_ten_toDigits

theorem ofDigitChars_noughts (digits : List Char) (n : Nat) :
    Nat.ofDigitChars 10 (digits ++ List.replicate n '0') 0
      = 10 ^ n * Nat.ofDigitChars 10 digits 0 := by
  rw [Nat.ofDigitChars_append, Nat.ofDigitChars_replicate_zero]

/-- Wherever the point stands, the parts make the same decimal. -/
theorem value_parts (some : digits ≠ []) (point : Int) :
    ((parts digits point).digits : Rat) * 10 ^ (parts digits point).exponent
      = Nat.ofDigitChars 10 digits 0 * 10 ^ (point - digits.length) := by
  have length := List.length_pos_of_ne_nil some
  unfold parts Parts.digits Parts.exponent
  split
  · split
    · have value : Nat.ofDigitChars 10 (['0'] ++ (List.replicate (-point).toNat '0' ++ digits)) 0
          = Nat.ofDigitChars 10 digits 0 := by
        rw [← List.append_assoc, Nat.ofDigitChars_append, Nat.ofDigitChars_append,
          Nat.ofDigitChars_replicate_zero]
        rfl
      dsimp only
      rw [value, List.length_append, List.length_replicate]
      congr 2
      push_cast
      omega
    · split
      · have value : Nat.ofDigitChars 10
            (digits ++ List.replicate (point - digits.length).toNat '0' ++ ['0']) 0
              = 10 ^ ((point - digits.length).toNat + 1) * Nat.ofDigitChars 10 digits 0 := by
          rw [List.append_assoc, show ['0'] = List.replicate 1 '0' from rfl,
            List.replicate_append_replicate, ofDigitChars_noughts]
        dsimp only
        rw [value, Nat.cast_mul, Nat.cast_pow, Nat.cast_ofNat, ← zpow_natCast, mul_right_comm,
          ← zpow_add₀ (by norm_num), mul_comm]
        congr 2
        simp
        omega
      · dsimp only
        rw [List.take_append_drop, List.length_drop]
        congr 2
        omega
  · dsimp only
    rw [List.take_append_drop, List.length_drop, ofDigitChars_paddedDigits, Exact.signed_natAbs]
    congr 2
    omega

end Place

section Layout

theorem head_toDigits_ne_nought {n : Nat} (pos : 0 < n) :
    ∀ c ∈ (Nat.toDigits 10 n).head?, c ≠ '0' := by
  induction n using Nat.strong_induction_on with
  | _ n ih =>
    rcases lt_or_ge n 10 with small | large
    · rw [Nat.toDigits_of_lt_base small]
      rintro c ⟨⟩ nought
      exact pos.ne' (Nat.digitChar_eq_zero.mp nought)
    · rw [Nat.toDigits_of_base_le (by decide) large]
      have front := ih (n / 10) (by omega) (by omega)
      obtain ⟨c, rest, same⟩ :=
        List.exists_cons_of_ne_nil (Nat.toDigits_ne_nil (n := n / 10) (b := 10))
      rw [same] at front ⊢
      exact front

theorem exists_noughts (digits : List Char) :
    ∃ n, digits = (digits.reverse.dropWhile (· == '0')).reverse ++ List.replicate n '0' := by
  have noughts : digits.reverse.takeWhile (· == '0')
      = List.replicate (digits.reverse.takeWhile (· == '0')).length '0' := by
    apply List.eq_replicate_of_mem
    intro c member
    have nought : (c == '0') = true := List.mem_takeWhile_imp (p := (· == '0')) member
    exact beq_iff_eq.mp nought
  refine ⟨(digits.reverse.takeWhile (· == '0')).length, ?_⟩
  conv_lhs => rw [← digits.reverse_reverse,
    ← List.takeWhile_append_dropWhile (p := (· == '0')) (l := digits.reverse)]
  rw [List.reverse_append, noughts, List.reverse_replicate, List.length_replicate]

variable {s : Scientific}

theorem layout_value (s : Scientific) :
    (Nat.ofDigitChars 10 s.layout.1 0 : Rat) * 10 ^ (s.layout.2 - s.layout.1.length) = s.value := by
  obtain ⟨n, same⟩ := exists_noughts (Nat.toDigits 10 s.digits)
  have length := congrArg List.length same
  have value : Nat.ofDigitChars 10 (Nat.toDigits 10 s.digits) 0 = s.digits :=
    Nat.ofDigitChars_ten_toDigits
  rw [List.length_append, List.length_replicate] at length
  rw [same, ofDigitChars_noughts] at value
  unfold Scientific.layout Scientific.value
  dsimp only
  rw [length]
  generalize ((Nat.toDigits 10 s.digits).reverse.dropWhile (· == '0')).reverse = kept at value ⊢
  rw [← value, Nat.cast_mul, Nat.cast_pow, Nat.cast_ofNat, ← zpow_natCast, mul_right_comm,
    ← zpow_add₀ (by norm_num), mul_comm]
  congr 2
  omega

theorem layout_digits (pos : 0 < s.digits) :
    s.layout.1 ≠ [] ∧ (∀ c ∈ s.layout.1, c.isDigit = true) ∧ ∀ c ∈ s.layout.1.head?, c ≠ '0' := by
  obtain ⟨n, same⟩ := exists_noughts (Nat.toDigits 10 s.digits)
  have first := head_toDigits_ne_nought pos
  have some := Nat.toDigits_ne_nil (n := s.digits) (b := 10)
  have figures : ∀ c ∈ Nat.toDigits 10 s.digits, c.isDigit = true :=
    fun c => isDigit_of_mem_toDigits
  unfold Scientific.layout
  dsimp only
  generalize ((Nat.toDigits 10 s.digits).reverse.dropWhile (· == '0')).reverse = kept at same
  rw [same] at first some figures
  have filled : kept ≠ [] := by
    rintro rfl
    rw [List.nil_append] at first some
    cases n with
    | zero => exact some rfl
    | succ n => exact first '0' rfl rfl
  refine ⟨filled, fun c member => figures c (List.mem_append_left _ member), ?_⟩
  intro c isFirst
  exact first c (List.mem_head?_append_of_mem_head? isFirst)

end Layout

section Numbers

variable {x : Float} {negative : Bool} {exponent mantissa : Nat}

/-- Whether a number is written as these parts under a sign, in the way in which a number that may
have a fraction is written, and the parts make the number. -/
structure Writes (x : Float) (negative : Bool) (parts : Parts) : Prop where
  chars : Shortest.chars x = signChars negative ++ parts.chars
  plain : parts.Plain
  fractional : parts.fraction ≠ [] ∨ parts.power ≠ none
  whole : parts.whole = ['0'] ∨ ∀ c ∈ parts.whole.head?, c ≠ '0'
  value : Binary.ofDecimal negative parts.digits parts.exponent = x

theorem applySign_nought (nought : x.toModel.unpack = .zero (signOf negative)) :
    Binary.applySign negative 0.0 = x := by
  apply eq_of_unpack
  rw [nought]
  cases negative with
  | false => exact Binary.unpack_nought
  | true =>
    change (-0.0 : Float).toModel.unpack = _
    rw [unpack_neg, Binary.unpack_nought]
    exact unpack_packedZero

theorem exists_writes (fields : Binary.fields x = (negative, exponent, mantissa))
    (notTop : exponent ≠ 2047) : ∃ parts, Writes x negative parts := by
  have text : chars x = signChars negative ++
      if exponent = 0 ∧ mantissa = 0 then "0.0".toList
      else place (interval exponent mantissa).shortest.layout.1
        (interval exponent mantissa).shortest.layout.2 := by
    have top : exponent ≠ twoTo 11 - 1 := notTop
    unfold chars
    rw [fields]
    dsimp only
    rw [if_neg top]
    split <;> rfl
  by_cases none : exponent = 0 ∧ mantissa = 0
  · rw [if_pos none] at text
    refine ⟨⟨['0'], ['0'], Option.none⟩, text, ⟨?_, ?_, ?_, ?_⟩, ?_, Or.inl rfl, ?_⟩
    · simp
    · simp
    · simp
    · simp
    · simp
    · exact applySign_nought (unpack_of_nought fields none.1 none.2)
  · rw [if_neg none] at text
    obtain ⟨some, figures, first⟩ := layout_digits (shortest_digits_pos fields notTop none)
    refine ⟨parts _ (interval exponent mantissa).shortest.layout.2, ?_, plain_parts some figures _,
      fraction_or_power some _, whole_parts some first _, ?_⟩
    · rw [text, place_eq_chars some]
    · apply ofDecimal_shortest fields notTop none
      rw [value_parts some, layout_value]

theorem infinity_eq (fields : Binary.fields x = (negative, exponent, mantissa))
    (top : exponent = 2047) (none : mantissa = 0) : Binary.infinity negative = x := by
  apply eq_of_unpack
  rw [unpack_of_top fields top, if_pos none]
  exact Binary.unpack_infinity negative

theorem nan_eq (fields : Binary.fields x = (negative, exponent, mantissa))
    (top : exponent = 2047) (some : mantissa ≠ 0) : Binary.nan = x := by
  apply eq_of_unpack
  rw [unpack_of_top fields top, if_neg some]
  exact unpack_of_top (by decide +kernel : Binary.fields Binary.nan = (false, 2047, 2 ^ 51)) rfl

end Numbers

end Shortest

end Screencast
