import Screencast.Number.Basic

/-!
Curves: the expressions over time that the video tool evaluates frame by frame. Numbers are written
with a fixed number of places, and `eval` counts with the numbers as they are written, so it gives
what the tool computes from the text.
-/

namespace Screencast

inductive Operator where
  | add
  | sub
  | mul
  | div
  | other (symbol : String)
deriving Repr, DecidableEq

inductive Function where
  | choose
  | less
  | max
  | min
  | other (name : String)
deriving Repr, DecidableEq

inductive Curve (α : Type) where
  | num (value : α) (places : Int)
  | var (name : String)
  | binary (op : Operator) (left right : Curve α)
  | call (function : Function) (args : List (Curve α))
deriving Repr

namespace Operator

def symbol : Operator → String
  | add => "+"
  | sub => "-"
  | mul => "*"
  | div => "/"
  | other symbol => symbol

def ofSymbol : String → Operator
  | "+" => add
  | "-" => sub
  | "*" => mul
  | "/" => div
  | symbol => other symbol

end Operator

namespace Function

def name : Function → String
  | choose => "if"
  | less => "lt"
  | max => "max"
  | min => "min"
  | other name => name

def ofName : String → Function
  | "if" => choose
  | "lt" => less
  | "max" => max
  | "min" => min
  | name => other name

end Function

variable {α : Type} [Number α]

/-- A comma as it is written inside the arguments of a filter. -/
def escapedComma : String := "\\,"

/-- A number with its places: none of them writes the nearest whole number. -/
inductive Written where
  | whole (value : Int)
  | numeral (value : Numeral)
deriving Repr, DecidableEq

namespace Written

def of (value : α) (places : Int) : Except Failure Written :=
  if places = 0 then (Number.exact value).round.map whole
  else if places < 0 then .error .negativePlaces
  else .ok (numeral (Number.toPlaces places.toNat value))

def toText : Written → String
  | whole value => toString value
  | numeral value => value.toText

def value : Written → α
  | whole value => Number.ofInt value
  | numeral value => Number.ofNumeral value

end Written

namespace Curve

def isBinary : Curve α → Bool
  | binary .. => true
  | _ => false

/-- An operand; one that is an operation itself stands in brackets. -/
def bracket (isOperation : Bool) (text : String) : String :=
  if isOperation then "(" ++ text ++ ")" else text

mutual

def render (comma : String) : Curve α → Except Failure String
  | num value places => (Written.of value places).map Written.toText
  | var name => .ok name
  | binary op left right => do
    let l ← left.render comma
    let r ← right.render comma
    pure (bracket left.isBinary l ++ op.symbol ++ bracket right.isBinary r)
  | call function args => do
    let texts ← renderAll comma args
    pure (function.name ++ "(" ++ String.intercalate comma texts ++ ")")

def renderAll (comma : String) : List (Curve α) → Except Failure (List String)
  | [] => .ok []
  | arg :: rest => do
    let text ← arg.render comma
    let texts ← renderAll comma rest
    pure (text :: texts)

end

/-- A quotient; by nought it is unbounded, on the side of the sign of `x`. -/
def divide (x y : α) : α :=
  if y == 0 then Number.unbounded (!decide (0 ≤ x)) else x / y

def operate : Operator → Except Failure (α → α → α)
  | .add => .ok (· + ·)
  | .sub => .ok (· - ·)
  | .mul => .ok (· * ·)
  | .div => .ok divide
  | .other symbol => .error (.missingKey symbol)

def extreme (pick : α → α → α) : List α → Except Failure α
  | first :: second :: rest => .ok ((second :: rest).foldl pick first)
  | _ => .error .wrongType

def applyTo : Function → Except Failure (List α → Except Failure α)
  | .less => .ok fun
    | [x, y] => .ok (if x < y then 1 else 0)
    | _ => .error .wrongType
  | .max => .ok (extreme Number.larger)
  | .min => .ok (extreme Number.smaller)
  | .choose => .error (.missingKey Function.choose.name)
  | .other name => .error (.missingKey name)

mutual

/-- The value at a time. Of a choice only the branch taken is looked at. -/
def eval (time : α) : Curve α → Except Failure α
  | num value places => (Written.of value places).map Written.value
  | var _ => .ok time
  | binary op left right => do
    let f ← operate op
    let l ← left.eval time
    let r ← right.eval time
    pure (f l r)
  | call .choose [condition, yes, no] => do
    let c ← condition.eval time
    if c == 0 then no.eval time else yes.eval time
  | call .choose args => .error (.threeExpected args.length)
  | call function args => do
    let f ← applyTo function
    let values ← evalAll time args
    f values

def evalAll (time : α) : List (Curve α) → Except Failure (List α)
  | [] => .ok []
  | arg :: rest => do
    let value ← arg.eval time
    let values ← evalAll time rest
    pure (value :: values)

end

end Curve

end Screencast
