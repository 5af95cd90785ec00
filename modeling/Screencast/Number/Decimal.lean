import Screencast.Number.Power

/-!
Decimals with a fixed number of places: a sign, the digits read as one whole number, and how many
of them stand after the point. `trim` drops the noughts at the end of the fraction.
-/

namespace Screencast

structure Decimal where
  negative : Bool
  digits : Nat
  places : Nat
deriving DecidableEq, Repr

namespace Decimal

def paddedDigits (width n : Nat) : List Char :=
  let ds := Nat.toDigits 10 n
  List.replicate (width - ds.length) '0' ++ ds

def whole (d : Decimal) : List Char :=
  Nat.toDigits 10 (d.digits / tenTo d.places)

def fraction (d : Decimal) : List Char :=
  paddedDigits d.places (d.digits % tenTo d.places)

/-- A sign if there is one, the whole part, and the fraction after a point unless it is empty. -/
def chars (d : Decimal) : List Char :=
  (if d.negative then ['-'] else []) ++ d.whole ++
    if d.places = 0 then [] else '.' :: d.fraction

def toText (d : Decimal) : String :=
  String.ofList d.chars

def trimDigits : Nat → Nat → Nat × Nat
  | digits, 0 => (digits, 0)
  | digits, places + 1 =>
    if digits % 10 = 0 then trimDigits (digits / 10) places else (digits, places + 1)

def trim (d : Decimal) : Decimal :=
  let (digits, places) := trimDigits d.digits d.places
  ⟨d.negative, digits, places⟩

theorem trimDigits_value (digits places : Nat) :
    (trimDigits digits places).1 * tenTo places = digits * tenTo (trimDigits digits places).2 := by
  induction places generalizing digits with
  | zero => simp [trimDigits]
  | succ places ih =>
    unfold trimDigits
    split
    · next tens =>
      have value := ih (digits / 10)
      have whole : digits / 10 * 10 = digits := by omega
      calc (trimDigits (digits / 10) places).1 * tenTo (places + 1)
          = (trimDigits (digits / 10) places).1 * tenTo places * 10 := by rw [tenTo_succ]; ac_rfl
        _ = digits / 10 * 10 * tenTo (trimDigits (digits / 10) places).2 := by rw [value]; ac_rfl
        _ = digits * tenTo (trimDigits (digits / 10) places).2 := by rw [whole]
    · rfl

theorem trimDigits_ends (digits places : Nat) (h : 0 < (trimDigits digits places).2) :
    (trimDigits digits places).1 % 10 ≠ 0 := by
  induction places generalizing digits with
  | zero => simp [trimDigits] at h
  | succ places ih =>
    unfold trimDigits at h ⊢
    split
    · next tens => exact ih _ (by simpa [tens] using h)
    · assumption

end Decimal

end Screencast
