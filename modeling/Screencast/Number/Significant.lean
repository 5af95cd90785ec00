import Screencast.Number.Exact

/-!
Numbers written with a fixed count of significant digits: in powers of ten, or in whichever of the
two notations is shorter.
-/

namespace Screencast.Significant

/-- The power of ten that a positive ratio lies at or above, its successor being too great. -/
def power (num den : Nat) : Int :=
  let guess : Int := (Nat.toDigits 10 num).length - (Nat.toDigits 10 den).length
  if den * tenTo guess.toNat ≤ num * tenTo (-guess).toNat then guess else guess - 1

/-- The digits of a ratio, `count` of them, read as one number, and the power of ten of the first.
-/
def digits (count num den : Nat) : Nat × Int :=
  if num = 0 then (0, 0)
  else
    let first := power num den
    let shift := (count : Int) - 1 - first
    let n := nearestEven (num * tenTo shift.toNat) (den * tenTo (-shift).toNat)
    if tenTo count ≤ n then (n / 10, first + 1) else (n, first)

def trimmed (places digits : Nat) : Decimal :=
  Decimal.trim ⟨false, digits, places⟩

/-- Digits with a point; `point` keeps the point where no digit follows it. -/
def decimalText (point : Bool) (d : Decimal) : List Char :=
  d.chars ++ if point && d.places = 0 then ['.'] else []

def powerText (power : Int) : List Char :=
  'e' :: (if power < 0 then '-' else '+') :: Decimal.paddedDigits 2 power.natAbs

def scientific (point : Bool) (places num den : Nat) : List Char :=
  let (n, power) := digits (places + 1) num den
  decimalText point ⟨false, n, places⟩ ++ powerText power

/-- `count` digits, in powers of ten only where the number is small or has no use for its digits;
noughts at the end go unless `point` is set. -/
def general (point : Bool) (count num den : Nat) : List Char :=
  let count := max 1 count
  let (n, power) := digits count num den
  let form (places digits : Nat) : List Char :=
    if point then decimalText true ⟨false, digits, places⟩ else (trimmed places digits).chars
  if -4 ≤ power ∧ power < count then
    form ((count : Int) - 1 - power).toNat n
  else form (count - 1) n ++ powerText power

end Screencast.Significant
