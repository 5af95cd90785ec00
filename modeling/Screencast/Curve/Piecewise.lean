import Screencast.Curve.Expr

/-!
Curves built from points. `piecewise` goes in a straight line from each point to the next and stays
at the last one; a point that is no later than the one before it starts no line.
-/

namespace Screencast.Curve

variable {α : Type} [Number α]

def add (x y : Curve α) : Curve α := .binary .add x y
def sub (x y : Curve α) : Curve α := .binary .sub x y
def mul (x y : Curve α) : Curve α := .binary .mul x y
def div (x y : Curve α) : Curve α := .binary .div x y
def maximum (x y : Curve α) : Curve α := .call .max [x, y]
def minimum (x y : Curve α) : Curve α := .call .min [x, y]

def time : Curve α := .var "t"

def clamp (value low high : Curve α) : Curve α := maximum low (minimum high value)

def ifBefore (moment : α) (earlier later : Curve α) : Curve α :=
  .call .choose [.call .less [time, .num moment 2], earlier, later]

def line (v slope t : α) (valuePlaces slopePlaces : Int) : Curve α :=
  add (.num v valuePlaces) (mul (.num slope slopePlaces) (sub time (.num t 2)))

def piecewise (valuePlaces slopePlaces : Int) : List (α × α) → Curve α
  | [] => .num 0 valuePlaces
  | [(_, v)] => .num v valuePlaces
  | (t, v) :: (t', v') :: rest =>
    let later := piecewise valuePlaces slopePlaces ((t', v') :: rest)
    if t' ≤ t then later
    else ifBefore t' (line v ((v' - v) / (t' - t)) t valuePlaces slopePlaces) later

end Screencast.Curve
