import Screencast.Number.Exact

/-!
The machine's numbers read bit by bit: a sign, eleven bits of exponent and fifty-two of mantissa.
-/

namespace Screencast.Binary

def fields (x : Float) : Bool × Nat × Nat :=
  let bits := x.toBits.toNat
  (twoTo 63 ≤ bits, bits / twoTo 52 % twoTo 11, bits % twoTo 52)

/-- A finite number's mantissa `m` and its exponent counted from the smallest: the magnitude is
`m * 2 ^ step / 2 ^ 1074`. -/
def scaled (exponent mantissa : Nat) : Nat × Nat :=
  if exponent = 0 then (mantissa, 0) else (twoTo 52 + mantissa, exponent - 1)

def exact (x : Float) : Exact :=
  let (negative, exponent, mantissa) := fields x
  if exponent = twoTo 11 - 1 then
    if mantissa = 0 then .infinite negative else .nan
  else
    let (m, step) := scaled exponent mantissa
    if 1074 ≤ step then .ratio negative (m * twoTo (step - 1074)) 1
    else .ratio negative m (twoTo (1074 - step))

def infinity (negative : Bool) : Float :=
  if negative then Float.ofBits 0xFFF0000000000000 else Float.ofBits 0x7FF0000000000000

def nan : Float :=
  Float.ofBits 0x7FF8000000000000

def applySign (negative : Bool) (x : Float) : Float :=
  if negative then -x else x

/-- The machine number nearest to `digits * 10 ^ exponent`. The magnitude is settled by the number
of digits alone where it lies outside the machine's range. -/
def ofDecimal (negative : Bool) (digits : Nat) (exponent : Int) : Float :=
  let size : Int := (Nat.toDigits 10 digits).length + exponent
  applySign negative <|
    if digits = 0 ∨ size < -330 then 0.0
    else if 310 < size then infinity false
    else if 0 ≤ exponent then Float.ofScientific digits false exponent.toNat
    else Float.ofScientific digits true (-exponent).toNat

def ofInteger (n : Int) : Except Failure Float :=
  let x := Float.ofInt n
  if (exact x).isFinite then .ok x else .error .integerTooLarge

end Screencast.Binary
