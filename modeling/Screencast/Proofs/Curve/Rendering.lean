import Mathlib
import Screencast.Number.Rational
import Screencast.Proofs.Curve.Reading

/-!
The texts of curves: they may be arguments of filters, and they say what the curves are.
-/

namespace Screencast.Text

def Escaped (cs : List Char) : Prop :=
  ∀ before after, cs = before ++ ',' :: after → before.getLast? = some '\\'

def IsQuotable (c : Char) : Prop := c ∉ ['\x27', '"', ';', '[', ']', ':']

instance (c : Char) : Decidable (IsQuotable c) :=
  inferInstanceAs (Decidable (c ∉ ['\x27', '"', ';', '[', ']', ':']))

def Plain (cs : List Char) : Prop :=
  ∀ c ∈ cs, c ≠ ',' ∧ IsQuotable c

instance (cs : List Char) : Decidable (Plain cs) :=
  List.decidableBAll (fun c => c ≠ ',' ∧ IsQuotable c) cs

/-- Whether a text may be an argument of a filter. -/
structure Quotable (cs : List Char) : Prop where
  escaped : Escaped cs
  chars : ∀ c ∈ cs, IsQuotable c

theorem Escaped.append {xs ys : List Char} (first : Escaped xs) (second : Escaped ys) :
    Escaped (xs ++ ys) := by
  intro before after split
  rcases List.append_eq_append_iff.mp split with ⟨others, rfl, inSecond⟩ | ⟨others, inFirst, rest⟩
  · rw [List.getLast?_append, second others after inSecond]
    rfl
  · cases others with
    | nil => cases second [] after rest.symm
    | cons c others =>
      obtain ⟨rfl, -⟩ := List.cons.inj rest
      exact first before others inFirst

theorem escaped_of_notMem {cs : List Char} (none : ',' ∉ cs) : Escaped cs := by
  rintro before after rfl
  exact absurd (List.mem_append_right _ List.mem_cons_self) none

theorem Quotable.append {xs ys : List Char} (first : Quotable xs) (second : Quotable ys) :
    Quotable (xs ++ ys) :=
  ⟨first.escaped.append second.escaped, List.forall_mem_append.mpr ⟨first.chars, second.chars⟩⟩

theorem quotable_of_plain {cs : List Char} (plain : Plain cs) : Quotable cs :=
  ⟨escaped_of_notMem fun member => (plain ',' member).1 rfl, fun c member => (plain c member).2⟩

theorem quotable_escapedComma : Quotable ['\\', ','] := by
  have chars : ∀ c ∈ ['\\', ','], IsQuotable c :=
    List.forall_mem_cons.mpr ⟨by decide, List.forall_mem_singleton.mpr (by decide)⟩
  refine ⟨fun before after split => ?_, chars⟩
  cases before with
  | nil => cases (List.cons.inj split).1
  | cons first others =>
    obtain ⟨rfl, comma⟩ := List.cons.inj split
    cases others with
    | nil => rfl
    | cons second others => simp at comma

theorem quotable_of_isFigure {cs : List Char} (figures : ∀ c ∈ cs, IsFigure c) : Quotable cs := by
  refine quotable_of_plain fun c member => ⟨(figures c member).ne (by decide), ?_⟩
  simp only [IsQuotable, List.mem_cons, List.not_mem_nil, or_false, not_or]
  have figure := figures c member
  exact ⟨figure.ne (by decide), figure.ne (by decide), figure.ne (by decide),
    figure.ne (by decide), figure.ne (by decide), figure.ne (by decide)⟩

theorem quotable_opening : Quotable ['('] := quotable_of_plain (by decide)

theorem Quotable.closed {cs : List Char} (quotable : Quotable cs) : Quotable (cs ++ [')']) :=
  quotable.append (quotable_of_plain (by decide))

theorem Quotable.comma {xs ys : List Char} (first : Quotable xs) (second : Quotable ys) :
    Quotable (xs ++ (['\\', ','] ++ ys)) :=
  first.append (quotable_escapedComma.append second)

theorem quotable_bracketed (isOperation : Bool) {cs : List Char} (quotable : Quotable cs) :
    Quotable (Formula.bracketed isOperation cs) := by
  unfold Formula.bracketed
  split
  · exact quotable_opening.append quotable.closed
  · exact quotable

theorem quotable_toChars {formula : Formula} (legible : formula.Legible) :
    Quotable (formula.toChars ['\\', ',']) := by
  induction formula with
  | number value => exact quotable_of_isFigure fun _ => Formula.isFigure_of_mem_toText legible
  | time => exact quotable_of_plain (by decide)
  | binary op _ _ left right =>
    have mark : Quotable [op.mark] := by
      cases op <;> exact quotable_of_plain (by decide)
    exact (quotable_bracketed _ (left legible.1)).append
      (mark.append (quotable_bracketed _ (right legible.2)))
  | compare function _ _ first second =>
    have name : Quotable function.name := by
      cases function <;> exact quotable_of_plain (by decide)
    exact name.append (quotable_opening.append ((first legible.1).comma (second legible.2).closed))
  | choose _ _ _ first second third =>
    have name : Quotable ['i', 'f'] := quotable_of_plain (by decide)
    exact name.append (quotable_opening.append
      ((first legible.1).comma ((second legible.2.1).comma (third legible.2.2).closed)))

end Screencast.Text

namespace Screencast.Curve

variable {α : Type} [Number α]

/-- The text says what the curve is. Read by the ordinary grammar it is the curve with each number
as it is written, so curves that differ in their shape or in a number as it is written differ in
their texts, and the value of what is read is that of the curve. With escaped commas the text may be
an argument of a filter. -/
theorem read_render {curve : Curve α} (standard : curve.Standard) {comma : String}
    (isComma : comma = "," ∨ comma = escapedComma) :
    ∃ text formula, curve.render comma = .ok text ∧ Formula.read comma text = some formula ∧
      curve.Prints formula ∧
      (∀ other : Curve α, other.Standard → other.render comma = .ok text → other.Prints formula) ∧
      (∀ time, curve.eval time = .ok (formula.eval time)) ∧
      (comma = escapedComma →
        Text.Escaped text.toList ∧ ∀ c ∈ text.toList, Text.IsQuotable c) := by
  have marks : Formula.IsComma comma.toList := by
    rcases isComma with rfl | rfl
    · exact .inl rfl
    · exact .inr rfl
  obtain ⟨formula, prints, legible⟩ := standard.exists_prints
  have read := Formula.read_toChars marks legible
  refine ⟨_, formula, prints.render_eq comma, read, prints, ?_, prints.eval_eq, ?_⟩
  · intro other otherStandard sameText
    obtain ⟨otherFormula, otherPrints, otherLegible⟩ := otherStandard.exists_prints
    have texts := Except.ok.inj ((otherPrints.render_eq comma).symm.trans sameText)
    have otherRead := Formula.read_toChars marks otherLegible
    rw [texts, read] at otherRead
    obtain rfl := Option.some_inj.mp otherRead
    exact otherPrints
  · rintro rfl
    rw [String.toList_ofList]
    have quotable := Text.quotable_toChars legible
    exact ⟨quotable.escaped, quotable.chars⟩

/-- Negative numbers next to operators, calls inside operations and operations inside calls. -/
theorem read_render_nested :
    let time : Curve Rat := .var "t"
    let shifted : Curve Rat := .binary .mul (.binary .add time (.num (-2) 1)) (.num 3 0)
    let bounded : Curve Rat :=
      .call .max [.binary .div (.num (1 / 4) 2) time, .call .min [time, .num (-1 / 2) 1]]
    let curve : Curve Rat :=
      .call .choose [.call .less [time, .num (-3 / 2) 2], .binary .sub shifted bounded, .num 1 0]
    let text := "if(lt(t\\,-1.50)\\,((t+-2.0)*3)-max(0.25/t\\,min(t\\,-0.5))\\,1)"
    curve.render escapedComma = .ok text ∧
      ∃ formula, Formula.read escapedComma text = some formula ∧ curve.Prints formula ∧
        ∀ t, curve.eval t = .ok (formula.eval t) := by
  intro time shifted bounded curve text
  have rendered : curve.render escapedComma = .ok text := by
    cbv
  have standard : curve.Standard :=
    .choose (.compare .less .time (.num rfl (by decide)))
      (.binary .sub
        (.binary .mul (.binary .add .time (.num rfl (by decide))) (.num rfl (by decide)))
        (.compare .max (.binary .div (.num rfl (by decide)) .time)
          (.compare .min .time (.num rfl (by decide)))))
      (.num rfl (by decide))
  obtain ⟨_, formula, isText, read, prints, _, value, _⟩ := read_render standard (.inr rfl)
  obtain rfl := Except.ok.inj (rendered.symm.trans isText)
  exact ⟨rendered, formula, read, prints, value⟩

end Screencast.Curve
