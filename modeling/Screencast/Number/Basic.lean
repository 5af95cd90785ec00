import Screencast.Number.Binary

/-!
The numbers that times, positions, zooms and volumes are made of. Everything built on them is
written once, for every number type: it runs on the machine's numbers, and read over the rationals
the same text is exact.
-/

namespace Screencast

class Number (α : Type) extends Add α, Sub α, Mul α, Div α, LT α, LE α, BEq α where
  decideLT : (x y : α) → Decidable (x < y)
  decideLE : (x y : α) → Decidable (x ≤ y)
  ofInt : Int → α
  ofFloat : Float → α
  /-- The number nearest to `digits / 10 ^ places`, with the sign. -/
  ofDecimal : Decimal → α
  /-- What a quotient by nought is taken for; a type without infinities has a stand-in. -/
  unbounded (negative : Bool) : α
  /-- What NaN is read as; a type without it has a stand-in. -/
  undefined : α
  exact : α → Exact

attribute [reducible, instance] Number.decideLT Number.decideLE

namespace Number

variable {α : Type} [Number α]

instance (priority := low) instOfNat (n : Nat) : OfNat α n := ⟨Number.ofInt n⟩

def half : α := 1 / 2

/-- The later of two if it is truly greater, else the first. -/
def larger (x y : α) : α := if x < y then y else x

/-- The later of two if it is truly smaller, else the first. -/
def smaller (x y : α) : α := if y < x then y else x

/-- Whether two numbers are the same one; NaN is the same as itself. -/
def same (x y : α) : Bool :=
  x == y || (!(x == x) && !(y == y))

def isFinite (x : α) : Bool := (exact x).isFinite

def isInfinite (x : α) : Bool := (exact x).isInfinite

/-- A whole number, unless it lies beyond all numbers. -/
def ofInt? (n : Int) : Except Failure α :=
  let x : α := ofInt n
  if isFinite x then .ok x else .error .integerTooLarge

def ofNumeral : Numeral → α
  | .nan => undefined
  | .infinite negative => unbounded negative
  | .decimal value => ofDecimal value

def toPlaces (places : Nat) (x : α) : Numeral :=
  (exact x).toPlaces places

end Number

instance : Number Float where
  decideLT := inferInstance
  decideLE := inferInstance
  ofInt := Float.ofInt
  ofFloat := id
  ofDecimal d := Binary.ofDecimal d.negative d.digits (-d.places)
  unbounded := Binary.infinity
  undefined := Binary.nan
  exact := Binary.exact

end Screencast
