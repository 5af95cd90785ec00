import Screencast.Number.Binary

/-!
The shortest text of a machine number. Of all decimals that read back to the number the one with
the fewest digits is taken, and of those the nearest; from one ten-thousandth up to sixteen digits
before the point it is written without an exponent.
-/

namespace Screencast.Shortest

/-- The decimals that read back to a positive number: those between `low / den` and `high / den`,
the ends among them if `closed`. The number itself is `mid / den`. -/
structure Interval where
  low : Nat
  mid : Nat
  high : Nat
  den : Nat
  closed : Bool

/-- Halfway to both neighbours; below a power of two the neighbour is nearer by half. -/
def interval (exponent mantissa : Nat) : Interval :=
  let (m, step) := Binary.scaled exponent mantissa
  let below := if mantissa = 0 ∧ 1 < exponent then 1 else 2
  let up := twoTo (step - 1076)
  ⟨(4 * m - below) * up, 4 * m * up, (4 * m + 2) * up, twoTo (1076 - step), m % 2 = 0⟩

structure Scientific where
  digits : Nat
  exponent : Int
deriving DecidableEq, Repr

namespace Interval

def inUnits (i : Interval) (exponent : Int) : Interval :=
  let up := tenTo (-exponent).toNat
  ⟨i.low * up, i.mid * up, i.high * up, i.den * tenTo exponent.toNat, i.closed⟩

def holds (i : Interval) (n : Nat) : Bool :=
  let place := n * i.den
  if i.closed then i.low ≤ place && place ≤ i.high else i.low < place && place < i.high

/-- The whole number in the interval that is nearest to its middle, if one of the two neighbours of
the middle lies inside; a tie goes to the even one. -/
def nearest? (i : Interval) : Option Nat :=
  let down := i.mid / i.den
  let rest := i.mid % i.den
  let takeUp := i.den < 2 * rest || (2 * rest == i.den && down % 2 == 1)
  match i.holds down, i.holds (down + 1) with
  | true, true => some (if takeUp then down + 1 else down)
  | true, false => some down
  | false, true => some (down + 1)
  | false, false => none

/-- An exponent `k` with `mid / den < 10 ^ k`, at most a few above the least. -/
def magnitude (i : Interval) : Int :=
  let bits : Int := (i.mid.log2 : Int) - i.den.log2
  let guess := Int.fdiv ((bits - 1) * 30103) 100000
  let above (k : Int) : Bool := i.mid * tenTo (-k).toNat < i.den * tenTo k.toNat
  if above guess then guess else if above (guess + 1) then guess + 1 else guess + 2

/-- Tries the grids of `n`, `n + 1`, … digits below `10 ^ k` in turn. -/
def search (i : Interval) (k : Int) : Nat → Nat → Scientific
  | 0, n => ⟨(i.inUnits (k - n)).mid / (i.inUnits (k - n)).den, k - n⟩
  | tries + 1, n =>
    match (i.inUnits (k - n)).nearest? with
    | some digits => ⟨digits, k - n⟩
    | none => search i k tries (n + 1)

/-- Eighteen digits tell all numbers of the machine apart. -/
def shortest (i : Interval) : Scientific :=
  i.search i.magnitude 18 1

end Interval

def Scientific.layout (s : Scientific) : List Char × Int :=
  let all := Nat.toDigits 10 s.digits
  let kept := (all.reverse.dropWhile (· == '0')).reverse
  (kept, all.length + s.exponent)

def place (digits : List Char) (point : Int) : List Char :=
  let noughts (n : Int) : List Char := List.replicate n.toNat '0'
  let count : Int := digits.length
  if -4 < point ∧ point ≤ 16 then
    if point ≤ 0 then '0' :: '.' :: noughts (-point) ++ digits
    else if count ≤ point then digits ++ noughts (point - count) ++ ['.', '0']
    else digits.take point.toNat ++ '.' :: digits.drop point.toNat
  else
    let mantissa := match digits with
      | first :: second :: rest => first :: '.' :: second :: rest
      | short => short
    let power := point - 1
    mantissa ++ 'e' :: (if power < 0 then '-' else '+') :: Decimal.paddedDigits 2 power.natAbs

def chars (x : Float) : List Char :=
  let (negative, exponent, mantissa) := Binary.fields x
  let sign := if negative then ['-'] else []
  if exponent = twoTo 11 - 1 then
    if mantissa = 0 then sign ++ "inf".toList else "nan".toList
  else if exponent = 0 ∧ mantissa = 0 then sign ++ "0.0".toList
  else
    let (digits, point) := (interval exponent mantissa).shortest.layout
    sign ++ place digits point

end Screencast.Shortest

namespace Screencast

def floatText (x : Float) : String :=
  String.ofList (Shortest.chars x)

end Screencast
