import Screencast.Number.Basic

/-!
The rationals as numbers: what is built on numbers, read over them, is exact. They have no
infinities and nothing undefined; nought stands in for these.
-/

namespace Screencast

def Decimal.toRat (d : Decimal) : Rat :=
  mkRat (Exact.signed d.negative d.digits) (tenTo d.places)

/-- The value of a finite number; nought for what has none. -/
def Exact.toRat : Exact → Rat
  | ratio negative num den => mkRat (signed negative num) den
  | _ => 0

def Exact.ofRat (q : Rat) : Exact :=
  .ratio (q.num < 0) q.num.natAbs q.den

instance : Number Rat where
  decideLT := inferInstance
  decideLE := inferInstance
  ofInt n := n
  ofFloat x := (Binary.exact x).toRat
  ofDecimal := Decimal.toRat
  unbounded _ := 0
  undefined := 0
  exact := .ofRat

end Screencast
