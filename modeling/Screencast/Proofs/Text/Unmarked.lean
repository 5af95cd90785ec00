import Screencast.Audio.Segment
import Screencast.Proofs.Text.Figures

/-!
Texts without the marks of a filter graph, the semicolon between its filters and the brackets around
the names of its streams: numbers however they are written, and curves through points.
-/

namespace Screencast.Text

def Unmarked (cs : List Char) : Prop :=
  ∀ c ∈ cs, c ≠ ';' ∧ c ≠ '[' ∧ c ≠ ']'

instance (cs : List Char) : Decidable (Unmarked cs) :=
  List.decidableBAll (fun c => c ≠ ';' ∧ c ≠ '[' ∧ c ≠ ']') cs

theorem unmarked_append {xs ys : List Char} :
    Unmarked (xs ++ ys) ↔ Unmarked xs ∧ Unmarked ys :=
  List.forall_mem_append

theorem unmarked_intercalate {separator : List Char} (between : Unmarked separator)
    {texts : List (List Char)} (parts : ∀ text ∈ texts, Unmarked text) :
    Unmarked (separator.intercalate texts) := by
  induction texts with
  | nil => exact fun _ member => nomatch member
  | cons first rest ih =>
    have firstPart := parts first (by simp)
    have restParts := ih fun text member => parts text (List.mem_cons_of_mem _ member)
    cases rest with
    | nil =>
      rw [List.intercalate_singleton]
      exact firstPart
    | cons second rest =>
      rw [List.intercalate_cons_cons]
      exact unmarked_append.mpr ⟨unmarked_append.mpr ⟨firstPart, between⟩, restParts⟩

theorem unmarked_of_isFigure {cs : List Char} (figures : ∀ c ∈ cs, IsFigure c) : Unmarked cs :=
  fun c member =>
    have figure := figures c member
    ⟨figure.ne (by decide), figure.ne (by decide), figure.ne (by decide)⟩

theorem unmarked_nat (n : Nat) : Unmarked (toString n).toList := by
  rw [toList_toString_nat]
  exact unmarked_of_isFigure fun _ member => .inl (isDigit_of_mem_toDigits member)

theorem unmarked_int (n : Int) : Unmarked (toString n).toList :=
  unmarked_of_isFigure fun _ => isFigure_of_mem_int

theorem unmarked_decimal (d : Decimal) : Unmarked d.toText.toList := by
  rw [Decimal.toText, String.toList_ofList]
  exact unmarked_of_isFigure fun _ => Decimal.isFigure_of_mem_chars

theorem unmarked_numeral (numeral : Numeral) : Unmarked numeral.toText.toList := by
  cases numeral with
  | nan => decide
  | infinite negative => cases negative <;> decide
  | decimal d => exact unmarked_decimal d

end Screencast.Text

namespace Screencast.Curve

open Text

variable {α : Type} [Number α]

/-- Whether a curve has a text, and that one has no marks of a graph. -/
def Writes (curve : Curve α) : Prop :=
  ∃ text, curve.render escapedComma = .ok text ∧ Unmarked text.toList

theorem Writes.num (value : α) {places : Int} (positive : 0 < places) :
    (Curve.num value places).Writes := by
  have written : Written.of value places = .ok (.numeral (Number.toPlaces places.toNat value)) := by
    unfold Written.of
    rw [if_neg (by omega), if_neg (by omega)]
  refine ⟨_, ?_, unmarked_numeral (Number.toPlaces places.toNat value)⟩
  rw [render, written]
  rfl

theorem Writes.whole {value : α} (finite : Number.isFinite value = true) :
    (Curve.num value 0).Writes := by
  unfold Number.isFinite at finite
  cases exact : Number.exact value with
  | nan => rw [exact] at finite; cases finite
  | infinite negative => rw [exact] at finite; cases finite
  | ratio negative num den =>
    refine ⟨_, ?_, unmarked_int (Exact.signed negative (nearestEven num den))⟩
    rw [render, Written.of, if_pos rfl, exact]
    rfl

theorem Writes.time : (time : Curve α).Writes := ⟨"t", by rw [Curve.time, render], by decide⟩

theorem unmarked_bracket (isOperation : Bool) {text : String} (plain : Unmarked text.toList) :
    Unmarked (bracket isOperation text).toList := by
  unfold bracket
  split
  · rw [String.toList_append, String.toList_append]
    exact unmarked_append.mpr ⟨unmarked_append.mpr ⟨by decide, plain⟩, by decide⟩
  · exact plain

theorem Writes.binary {op : Operator} (plain : Unmarked op.symbol.toList) {x y : Curve α}
    (left : x.Writes) (right : y.Writes) : (Curve.binary op x y).Writes := by
  obtain ⟨l, leftText, leftPlain⟩ := left
  obtain ⟨r, rightText, rightPlain⟩ := right
  refine ⟨bracket x.isBinary l ++ op.symbol ++ bracket y.isBinary r, ?_, ?_⟩
  · rw [render, leftText, rightText]
    rfl
  · rw [String.toList_append, String.toList_append]
    exact unmarked_append.mpr ⟨unmarked_append.mpr ⟨unmarked_bracket _ leftPlain, plain⟩,
      unmarked_bracket _ rightPlain⟩

theorem exists_renderAll {args : List (Curve α)} (writes : ∀ arg ∈ args, arg.Writes) :
    ∃ texts, renderAll escapedComma args = .ok texts ∧ ∀ text ∈ texts, Unmarked text.toList := by
  induction args with
  | nil => exact ⟨[], by rw [renderAll], by simp⟩
  | cons arg rest ih =>
    obtain ⟨text, rendered, plain⟩ := writes arg (by simp)
    obtain ⟨texts, renderedRest, plainRest⟩ :=
      ih fun other member => writes other (List.mem_cons_of_mem _ member)
    refine ⟨text :: texts, ?_, List.forall_mem_cons.mpr ⟨plain, plainRest⟩⟩
    rw [renderAll, rendered, renderedRest]
    rfl

theorem Writes.call {function : Function} (plain : Unmarked function.name.toList)
    {args : List (Curve α)} (writes : ∀ arg ∈ args, arg.Writes) :
    (Curve.call function args).Writes := by
  obtain ⟨texts, rendered, plainTexts⟩ := exists_renderAll writes
  refine ⟨function.name ++ "(" ++ String.intercalate escapedComma texts ++ ")", ?_, ?_⟩
  · rw [render, rendered]
    rfl
  · simp only [String.toList_append, String.toList_intercalate]
    have inside : Unmarked (escapedComma.toList.intercalate (texts.map String.toList)) :=
      unmarked_intercalate (by decide) fun text member => by
        obtain ⟨original, inTexts, rfl⟩ := List.mem_map.mp member
        exact plainTexts original inTexts
    exact unmarked_append.mpr ⟨unmarked_append.mpr
      ⟨unmarked_append.mpr ⟨plain, by decide⟩, inside⟩, by decide⟩

theorem Writes.maximum {x y : Curve α} (left : x.Writes) (right : y.Writes) :
    (maximum x y).Writes :=
  .call (by decide) (List.forall_mem_cons.mpr ⟨left, List.forall_mem_singleton.mpr right⟩)

theorem Writes.minimum {x y : Curve α} (left : x.Writes) (right : y.Writes) :
    (minimum x y).Writes :=
  .call (by decide) (List.forall_mem_cons.mpr ⟨left, List.forall_mem_singleton.mpr right⟩)

theorem Writes.sub {x y : Curve α} (left : x.Writes) (right : y.Writes) : (sub x y).Writes :=
  .binary (by decide) left right

theorem Writes.div {x y : Curve α} (left : x.Writes) (right : y.Writes) : (div x y).Writes :=
  .binary (by decide) left right

theorem Writes.clamp {value low high : Curve α} (inner : value.Writes) (least : low.Writes)
    (greatest : high.Writes) : (clamp value low high).Writes :=
  .maximum least (.minimum greatest inner)

theorem Writes.line (v slope t : α) {valuePlaces slopePlaces : Int} (positive : 0 < valuePlaces)
    (slopePositive : 0 < slopePlaces) : (line v slope t valuePlaces slopePlaces).Writes :=
  .binary (by decide) (.num v positive) (.binary (by decide) (.num slope slopePositive)
    (.binary (by decide) .time (.num t (by decide))))

theorem Writes.ifBefore (moment : α) {earlier later : Curve α} (first : earlier.Writes)
    (second : later.Writes) : (ifBefore moment earlier later).Writes := by
  have condition : (Curve.call .less [Curve.time, .num moment 2]).Writes :=
    .call (by decide) fun arg member => by
      simp only [List.mem_cons, List.not_mem_nil, or_false] at member
      rcases member with rfl | rfl
      · exact .time
      · exact .num moment (by decide)
  refine .call (by decide) fun arg member => ?_
  simp only [List.mem_cons, List.not_mem_nil, or_false] at member
  rcases member with rfl | rfl | rfl
  · exact condition
  · exact first
  · exact second

theorem Writes.piecewise {valuePlaces slopePlaces : Int} (positive : 0 < valuePlaces)
    (slopePositive : 0 < slopePlaces) (points : List (α × α)) :
    (piecewise valuePlaces slopePlaces points).Writes := by
  match points with
  | [] =>
    rw [Curve.piecewise]
    exact .num 0 positive
  | [(_, v)] =>
    rw [Curve.piecewise]
    exact .num v positive
  | (t, v) :: (t', v') :: rest =>
    have later := Writes.piecewise positive slopePositive ((t', v') :: rest)
    rw [Curve.piecewise]
    split
    · exact later
    · exact .ifBefore t' (.line v _ t positive slopePositive) later

end Screencast.Curve
