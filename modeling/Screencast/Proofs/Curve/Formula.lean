import Screencast.Curve.Expr

/-!
Formulas: what a text says. A formula is a curve with each number as it is written, made of nothing
but what the video tool knows, so it always has a value.
-/

namespace Screencast

inductive Operation where
  | add
  | sub
  | mul
  | div
deriving DecidableEq, Repr

inductive Comparison where
  | less
  | max
  | min
deriving DecidableEq, Repr

inductive Formula where
  | number (value : Written)
  | time
  | binary (op : Operation) (left right : Formula)
  | compare (function : Comparison) (x y : Formula)
  | choose (condition yes no : Formula)
deriving DecidableEq, Repr

variable {α : Type} [Number α]

namespace Operation

def toOperator : Operation → Operator
  | add => .add
  | sub => .sub
  | mul => .mul
  | div => .div

def mark : Operation → Char
  | add => '+'
  | sub => '-'
  | mul => '*'
  | div => '/'

def apply (op : Operation) (x y : α) : α :=
  match op with
  | add => x + y
  | sub => x - y
  | mul => x * y
  | div => Curve.divide x y

theorem toList_symbol (op : Operation) : op.toOperator.symbol.toList = [op.mark] := by
  cases op <;> rfl

theorem operate_toOperator (op : Operation) :
    (Curve.operate op.toOperator : Except Failure (α → α → α)) = .ok op.apply := by
  cases op <;> rfl

end Operation

namespace Comparison

def toFunction : Comparison → Function
  | less => .less
  | max => .max
  | min => .min

def name : Comparison → List Char
  | less => ['l', 't']
  | max => ['m', 'a', 'x']
  | min => ['m', 'i', 'n']

def apply (function : Comparison) (x y : α) : α :=
  match function with
  | less => if x < y then 1 else 0
  | max => Number.larger x y
  | min => Number.smaller x y

theorem toList_name (function : Comparison) :
    function.toFunction.name.toList = function.name := by
  cases function <;> rfl

end Comparison

namespace Formula

def isBinary : Formula → Bool
  | binary .. => true
  | _ => false

def bracketed (isOperation : Bool) (text : List Char) : List Char :=
  if isOperation then '(' :: (text ++ [')']) else text

def toChars (comma : List Char) : Formula → List Char
  | number value => value.toText.toList
  | time => ['t']
  | binary op left right =>
    bracketed left.isBinary (left.toChars comma) ++
      op.mark :: bracketed right.isBinary (right.toChars comma)
  | compare function x y =>
    function.name ++ '(' :: (x.toChars comma ++ (comma ++ (y.toChars comma ++ [')'])))
  | choose condition yes no =>
    ['i', 'f'] ++ '(' :: (condition.toChars comma ++
      (comma ++ (yes.toChars comma ++ (comma ++ (no.toChars comma ++ [')'])))))

def operandChars (comma : List Char) (formula : Formula) : List Char :=
  bracketed formula.isBinary (formula.toChars comma)

def eval (t : α) : Formula → α
  | number value => value.value
  | time => t
  | binary op left right => op.apply (left.eval t) (right.eval t)
  | compare function x y => function.apply (x.eval t) (y.eval t)
  | choose condition yes no => if condition.eval t == 0 then no.eval t else yes.eval t

end Formula

def Written.Legible : Written → Prop
  | whole _ => True
  | numeral (.decimal d) => 0 < d.places
  | numeral _ => False

def Formula.Legible : Formula → Prop
  | number value => value.Legible
  | time => True
  | binary _ left right => left.Legible ∧ right.Legible
  | compare _ x y => x.Legible ∧ y.Legible
  | choose condition yes no => condition.Legible ∧ yes.Legible ∧ no.Legible

namespace Curve

/-- The curves made of finite numbers, the time, the four operations, and the known functions with
as many arguments as they take. -/
inductive Standard : Curve α → Prop where
  | num {value : α} {places : Int} (finite : Number.isFinite value = true) (nonneg : 0 ≤ places) :
      Standard (.num value places)
  | time : Standard (.var "t")
  | binary (op : Operation) {left right : Curve α} (first : Standard left)
      (second : Standard right) : Standard (.binary op.toOperator left right)
  | compare (function : Comparison) {x y : Curve α} (first : Standard x) (second : Standard y) :
      Standard (.call function.toFunction [x, y])
  | choose {condition yes no : Curve α} (first : Standard condition) (second : Standard yes)
      (third : Standard no) : Standard (.call .choose [condition, yes, no])

/-- Whether a formula is the curve with each number as it is written. -/
inductive Prints : Curve α → Formula → Prop where
  | num {value : α} {places : Int} {written : Written}
      (made : Written.of value places = .ok written) :
      Prints (.num value places) (.number written)
  | time : Prints (.var "t") .time
  | binary (op : Operation) {left right : Curve α} {a b : Formula} (first : Prints left a)
      (second : Prints right b) : Prints (.binary op.toOperator left right) (.binary op a b)
  | compare (function : Comparison) {x y : Curve α} {a b : Formula} (first : Prints x a)
      (second : Prints y b) : Prints (.call function.toFunction [x, y]) (.compare function a b)
  | choose {condition yes no : Curve α} {a b c : Formula} (first : Prints condition a)
      (second : Prints yes b) (third : Prints no c) :
      Prints (.call .choose [condition, yes, no]) (.choose a b c)

variable {curve : Curve α} {formula : Formula}

theorem exists_written {value : α} {places : Int} (finite : Number.isFinite value = true)
    (nonneg : 0 ≤ places) : ∃ written, Written.of value places = .ok written ∧ written.Legible := by
  unfold Number.isFinite at finite
  unfold Written.of Number.toPlaces
  cases exact : Number.exact value with
  | nan => simp [exact, Exact.isFinite] at finite
  | infinite negative => simp [exact, Exact.isFinite] at finite
  | ratio negative num den =>
    by_cases whole : places = 0
    · rw [if_pos whole]
      exact ⟨_, rfl, trivial⟩
    · rw [if_neg whole, if_neg (by omega)]
      have positive : 0 < places.toNat := by omega
      exact ⟨_, rfl, positive⟩

theorem Standard.exists_prints (standard : curve.Standard) :
    ∃ formula, curve.Prints formula ∧ formula.Legible := by
  induction standard with
  | num finite nonneg =>
    obtain ⟨written, made, legible⟩ := exists_written finite nonneg
    exact ⟨_, .num made, legible⟩
  | time => exact ⟨_, .time, trivial⟩
  | binary op _ _ first second =>
    obtain ⟨a, left, leftLegible⟩ := first
    obtain ⟨b, right, rightLegible⟩ := second
    exact ⟨_, .binary op left right, leftLegible, rightLegible⟩
  | compare function _ _ first second =>
    obtain ⟨a, x, xLegible⟩ := first
    obtain ⟨b, y, yLegible⟩ := second
    exact ⟨_, .compare function x y, xLegible, yLegible⟩
  | choose _ _ _ first second third =>
    obtain ⟨a, condition, conditionLegible⟩ := first
    obtain ⟨b, yes, yesLegible⟩ := second
    obtain ⟨c, no, noLegible⟩ := third
    exact ⟨_, .choose condition yes no, conditionLegible, yesLegible, noLegible⟩

theorem Prints.isBinary_eq (prints : curve.Prints formula) :
    curve.isBinary = formula.isBinary := by
  cases prints <;> rfl

theorem bracket_ofList (isOperation : Bool) (text : List Char) :
    bracket isOperation (String.ofList text) =
      String.ofList (Formula.bracketed isOperation text) := by
  refine String.toList_inj.mp ?_
  unfold bracket Formula.bracketed
  split <;> simp

theorem Prints.render_eq (prints : curve.Prints formula) (comma : String) :
    curve.render comma = .ok (String.ofList (formula.toChars comma.toList)) := by
  induction prints with
  | num made =>
    rw [render, made, Formula.toChars, String.ofList_toList]
    rfl
  | time => rfl
  | binary op left right first second =>
    rw [render, first, second]
    refine congrArg Except.ok (String.toList_inj.mp ?_)
    simp [bracket_ofList, left.isBinary_eq, right.isBinary_eq, Formula.toChars,
      Operation.toList_symbol]
  | compare function _ _ first second =>
    rw [render, renderAll, renderAll, renderAll, first, second]
    refine congrArg Except.ok (String.toList_inj.mp ?_)
    simp [Formula.toChars, Comparison.toList_name]
  | choose _ _ _ first second third =>
    rw [render, renderAll, renderAll, renderAll, renderAll, first, second, third]
    refine congrArg Except.ok (String.toList_inj.mp ?_)
    simp [Formula.toChars, Function.name]

theorem Prints.eval_eq (prints : curve.Prints formula) (t : α) :
    curve.eval t = .ok (formula.eval t) := by
  induction prints with
  | num made =>
    rw [eval, made]
    rfl
  | time => rfl
  | binary op _ _ first second =>
    rw [eval, Operation.operate_toOperator, first, second]
    rfl
  | compare function _ _ first second =>
    cases function
    all_goals
      simp only [Comparison.toFunction, eval, evalAll, first, second]
      rfl
  | choose _ _ _ first second third =>
    rw [eval, first, second, third]
    exact (apply_ite Except.ok _ _ _).symm

end Curve

end Screencast
