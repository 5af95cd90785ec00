import Screencast.Failure
import Screencast.Number.Decimal

/-!
The exact value behind a number: NaN, an infinity, or a ratio of whole numbers with a sign of its
own, so that a negative nought stays one. Everything that has to be exact, decimals with a fixed
number of places and whole numbers, is computed here.
-/

namespace Screencast

inductive Exact where
  | nan
  | infinite (negative : Bool)
  | ratio (negative : Bool) (num den : Nat)
deriving DecidableEq, Repr

inductive Numeral where
  | nan
  | infinite (negative : Bool)
  | decimal (value : Decimal)
deriving DecidableEq, Repr

namespace Numeral

def toText : Numeral → String
  | nan => "nan"
  | infinite negative => if negative then "-inf" else "inf"
  | decimal value => value.toText

def trim : Numeral → Numeral
  | decimal value => decimal value.trim
  | other => other

end Numeral

/-- `num / den` to the nearest whole number; a half goes to the even neighbour. -/
def nearestEven (num den : Nat) : Nat :=
  let quotient := num / den
  let rest := num % den
  if 2 * rest < den then quotient
  else if den < 2 * rest then quotient + 1
  else quotient + quotient % 2

namespace Exact

def isFinite : Exact → Bool
  | ratio .. => true
  | _ => false

def isInfinite : Exact → Bool
  | infinite _ => true
  | _ => false

def toPlaces (places : Nat) : Exact → Numeral
  | nan => .nan
  | infinite negative => .infinite negative
  | ratio negative num den => .decimal ⟨negative, nearestEven (num * tenTo places) den, places⟩

def signed (negative : Bool) (n : Nat) : Int :=
  if negative then -(n : Int) else n

def toInteger (take : Bool → Nat → Nat → Int) : Exact → Except Failure Int
  | nan => .error .nanToInteger
  | infinite _ => .error .infinityToInteger
  | ratio negative num den => .ok (take negative num den)

def round : Exact → Except Failure Int :=
  toInteger fun negative num den => signed negative (nearestEven num den)

def ceil : Exact → Except Failure Int :=
  toInteger fun negative num den =>
    if negative then -((num / den : Nat) : Int) else ((num + den - 1) / den : Nat)

def truncate : Exact → Except Failure Int :=
  toInteger fun negative num den => signed negative (num / den)

end Exact

end Screencast
