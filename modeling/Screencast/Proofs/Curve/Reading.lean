import Screencast.Proofs.Curve.Formula
import Screencast.Proofs.Text.Figures

/-!
The reader of formulas: sums of products of numbers, the time, calls and brackets. What is written
is read as it was meant, so the text of a curve tells its shape and its numbers.
-/

namespace Screencast.Formula

/-- A reader takes something from the front of a text and leaves the rest. -/
abbrev Reader (β : Type) := List Char → Option (β × List Char)

section Grammar

def digits : Reader (List Char) := fun text =>
  match text.takeWhile Char.isDigit with
  | [] => none
  | ds => some (ds, text.dropWhile Char.isDigit)

def unsigned (negative : Bool) : Reader Written := fun text => do
  let (whole, rest) ← digits text
  match rest with
  | '.' :: rest =>
    let (fraction, rest) ← digits rest
    let value := Nat.ofDigitChars 10 (whole ++ fraction) 0
    pure (.numeral (.decimal ⟨negative, value, fraction.length⟩), rest)
  | _ => pure (.whole (Exact.signed negative (Nat.ofDigitChars 10 whole 0)), rest)

def signed : Reader Written
  | '-' :: rest => unsigned true rest
  | text => unsigned false text

variable (comma : List Char) (nested : Reader Formula)

def arguments (name : List Char) : Reader Formula := fun text =>
  match name with
  | ['i', 'f'] => do
    let (condition, rest) ← nested text
    let (yes, rest) ← nested (← rest.dropPrefix? comma)
    let (no, rest) ← nested (← rest.dropPrefix? comma)
    pure (.choose condition yes no, ← rest.dropPrefix? [')'])
  | _ => do
    let function ← [Comparison.less, .max, .min].find? (·.name == name)
    let (x, rest) ← nested text
    let (y, rest) ← nested (← rest.dropPrefix? comma)
    pure (.compare function x y, ← rest.dropPrefix? [')'])

def named (name : List Char) : Reader Formula := fun text =>
  match name with
  | ['t'] => some (.time, text)
  | _ => do arguments comma nested name (← text.dropPrefix? ['('])

def factor : Reader Formula := fun text =>
  match text with
  | '(' :: inner => do
    let (formula, rest) ← nested inner
    pure (formula, ← rest.dropPrefix? [')'])
  | _ =>
    match text.takeWhile Char.isAlpha with
    | [] => (signed text).map fun (value, rest) => (.number value, rest)
    | name => named comma nested name (text.dropWhile Char.isAlpha)

/-- Operations and operands, taken to what stands before them one after another. There are no more
of them than characters, so the length of the text will do for `steps`. -/
def chain (operation? : Char → Option Operation) (operand : Reader Formula) :
    (steps : Nat) → Formula → Reader Formula
  | 0, left, text => some (left, text)
  | _, left, [] => some (left, [])
  | steps + 1, left, c :: rest =>
    match operation? c with
    | none => some (left, c :: rest)
    | some op => do
      let (right, rest) ← operand rest
      chain operation? operand steps (.binary op left right) rest

def operations (operation? : Char → Option Operation) (operand : Reader Formula) :
    Reader Formula := fun text => do
  let (first, rest) ← operand text
  chain operation? operand rest.length first rest

def multiplicative? : Char → Option Operation
  | '*' => some .mul
  | '/' => some .div
  | _ => none

def additive? : Char → Option Operation
  | '+' => some .add
  | '-' => some .sub
  | _ => none

def sum : Reader Formula :=
  operations additive? (operations multiplicative? (factor comma nested))

/-- A formula; `depth` bounds the steps into brackets. -/
def within : (depth : Nat) → Reader Formula
  | 0 => fun _ => none
  | depth + 1 => sum comma (within depth)

def read (comma text : String) : Option Formula :=
  match within comma.toList (text.toList.length + 1) text.toList with
  | some (formula, []) => some formula
  | _ => none

end Grammar

/-- Products bind more tightly than sums, and operations of one kind are taken from the left. -/
example : read "," "t-2*t-max(-0.5,(t-1))/t" =
    some (.binary .sub
      (.binary .sub .time (.binary .mul (.number (.whole 2)) .time))
      (.binary .div
        (.compare .max (.number (.numeral (.decimal ⟨true, 5, 1⟩)))
          (.binary .sub .time (.number (.whole 1))))
        .time)) := by
  decide +kernel

def Separate (rest : List Char) : Prop :=
  ∀ c ∈ rest.head?, c.isDigit = false ∧ c.isAlpha = false ∧ c ≠ '.'

def Closed (rest : List Char) : Prop :=
  ∀ c ∈ rest.head?, c = ')' ∨ c = ',' ∨ c = '\\'

theorem Closed.separate {rest : List Char} (closed : Closed rest) : Separate rest := by
  intro c first
  rcases closed c first with rfl | rfl | rfl <;> decide

theorem Closed.additive? {rest : List Char} (closed : Closed rest) :
    ∀ c ∈ rest.head?, additive? c = none := by
  intro c first
  rcases closed c first with rfl | rfl | rfl <;> rfl

theorem Closed.multiplicative? {rest : List Char} (closed : Closed rest) :
    ∀ c ∈ rest.head?, multiplicative? c = none := by
  intro c first
  rcases closed c first with rfl | rfl | rfl <;> rfl

theorem closed_bracket (rest : List Char) : Closed (')' :: rest) := by
  rintro c ⟨⟩
  exact .inl rfl

theorem separate_mark (op : Operation) (rest : List Char) : Separate (op.mark :: rest) := by
  rintro c ⟨⟩
  cases op <;> decide

section Numbers

variable {rest : List Char}

theorem digits_append {ds : List Char} (nonempty : ds ≠ [])
    (inside : ∀ c ∈ ds, c.isDigit = true) (outside : ∀ c ∈ rest.head?, c.isDigit = false) :
    digits (ds ++ rest) = some (ds, rest) := by
  obtain ⟨taken, dropped⟩ := span_append inside outside
  unfold digits
  rw [taken, dropped]
  cases ds with
  | nil => exact absurd rfl nonempty
  | cons c ds => rfl

theorem digits_toDigits (n : Nat) (outside : ∀ c ∈ rest.head?, c.isDigit = false) :
    digits (Nat.toDigits 10 n ++ rest) = some (Nat.toDigits 10 n, rest) :=
  digits_append Nat.toDigits_ne_nil (fun _ => Text.isDigit_of_mem_toDigits) outside

theorem unsigned_toDigits (negative : Bool) (n : Nat) (separate : Separate rest) :
    unsigned negative (Nat.toDigits 10 n ++ rest) =
      some (.whole (Exact.signed negative n), rest) := by
  unfold unsigned
  rw [digits_toDigits n fun c first => (separate c first).1]
  simp only [Option.bind_eq_bind, Option.bind_some]
  split
  · next rest => exact absurd rfl (separate '.' rfl).2.2
  · rw [Nat.ofDigitChars_ten_toDigits]
    rfl

theorem unsigned_decimal {d : Decimal} (some_place : 0 < d.places) (separate : Separate rest) :
    unsigned d.negative (d.whole ++ '.' :: (d.fraction ++ rest)) =
      some (.numeral (.decimal d), rest) := by
  have point : ∀ c ∈ ('.' :: (d.fraction ++ rest)).head?, c.isDigit = false := by
    rintro c ⟨⟩
    rfl
  have nonempty : d.fraction ≠ [] := by
    rw [← List.length_pos_iff, Decimal.length_fraction some_place]
    exact some_place
  have fraction : digits (d.fraction ++ rest) = some (d.fraction, rest) :=
    digits_append nonempty (fun _ => Decimal.isDigit_of_mem_fraction)
      fun c first => (separate c first).1
  have whole := digits_toDigits (d.digits / tenTo d.places) point
  rw [← Decimal.whole] at whole
  unfold unsigned
  simp only [whole, fraction, Option.bind_eq_bind, Option.bind_some,
    Decimal.ofDigitChars_chars some_place, Decimal.length_fraction some_place]
  rfl

theorem signed_append (negative : Bool) {text : List Char}
    (begins : ∀ c ∈ text.head?, c.isDigit = true) :
    signed ((if negative then ['-'] else []) ++ text) = unsigned negative text := by
  cases negative with
  | true => rfl
  | false =>
    simp only [Bool.false_eq_true, if_false, List.nil_append]
    unfold signed
    split
    · next rest => exact absurd (begins '-' rfl) (by decide)
    · rfl

theorem isDigit_of_head?_toDigits {n : Nat} {rest : List Char} {c : Char}
    (first : c ∈ (Nat.toDigits 10 n ++ rest).head?) : c.isDigit = true := by
  cases digits : Nat.toDigits 10 n with
  | nil => exact absurd digits Nat.toDigits_ne_nil
  | cons d ds =>
    rw [digits] at first
    cases first
    exact Text.isDigit_of_mem_toDigits (n := n) (by simp [digits])

theorem exists_unsigned {value : Written} (legible : value.Legible) (separate : Separate rest) :
    ∃ negative text,
      value.toText.toList ++ rest = (if negative then ['-'] else []) ++ text ∧
        (∀ c ∈ text.head?, c.isDigit = true) ∧ unsigned negative text = some (value, rest) := by
  cases value with
  | whole n =>
    refine ⟨decide (n < 0), Nat.toDigits 10 n.natAbs ++ rest, ?_,
      fun _ => isDigit_of_head?_toDigits, ?_⟩
    · rw [Written.toText, toList_toString_int, List.append_assoc]
    · rw [unsigned_toDigits _ _ separate, Exact.signed_natAbs]
  | numeral numeral =>
    cases numeral with
    | nan => cases legible
    | infinite negative => cases legible
    | decimal d =>
      refine ⟨d.negative, d.whole ++ '.' :: (d.fraction ++ rest), ?_,
        fun _ => isDigit_of_head?_toDigits, unsigned_decimal legible separate⟩
      have places : d.places ≠ 0 := Nat.ne_of_gt legible
      change d.toText.toList ++ rest = _
      simp [Decimal.toText, Decimal.chars, places]

theorem isFigure_of_mem_toText {value : Written} (legible : value.Legible) {c : Char}
    (member : c ∈ value.toText.toList) : Text.IsFigure c := by
  cases value with
  | whole n => exact isFigure_of_mem_int member
  | numeral numeral =>
    cases numeral with
    | nan => cases legible
    | infinite negative => cases legible
    | decimal d =>
      change c ∈ d.toText.toList at member
      rw [Decimal.toText, String.toList_ofList] at member
      exact Decimal.isFigure_of_mem_chars member

end Numbers

section Operations

variable {operation? : Char → Option Operation} {operand : Reader Formula}
  {text middle rest : List Char} {a b : Formula}

theorem chain_of_end (steps : Nat) (ends : ∀ c ∈ rest.head?, operation? c = none) :
    chain operation? operand steps a rest = some (a, rest) := by
  cases steps with
  | zero => rfl
  | succ steps =>
    cases rest with
    | nil => rfl
    | cons c rest => rw [chain, ends c rfl]

theorem operations_single (first : operand text = some (a, rest))
    (ends : ∀ c ∈ rest.head?, operation? c = none) :
    operations operation? operand text = some (a, rest) := by
  unfold operations
  rw [first]
  exact chain_of_end _ ends

theorem operations_pair {op : Operation} (isOperation : operation? op.mark = some op)
    (first : operand text = some (a, op.mark :: middle)) (second : operand middle = some (b, rest))
    (ends : ∀ c ∈ rest.head?, operation? c = none) :
    operations operation? operand text = some (.binary op a b, rest) := by
  unfold operations
  rw [first]
  change chain operation? operand (middle.length + 1) a (op.mark :: middle) = _
  rw [chain, isOperation]
  simp only [second, Option.bind_eq_bind, Option.bind_some]
  exact chain_of_end _ ends

end Operations

variable {comma : List Char} {nested : Reader Formula} {text middle rest : List Char}
  {a b c : Formula}

theorem sum_of_factor (alone : factor comma nested text = some (a, rest)) (closed : Closed rest) :
    sum comma nested text = some (a, rest) :=
  operations_single (operations_single alone closed.multiplicative?) closed.additive?

theorem sum_of_factors (op : Operation)
    (first : factor comma nested text = some (a, op.mark :: middle))
    (second : factor comma nested middle = some (b, rest)) (closed : Closed rest) :
    sum comma nested text = some (.binary op a b, rest) := by
  have additive (isSum : additive? op.mark = some op) (noProduct : multiplicative? op.mark = none) :
      sum comma nested text = some (.binary op a b, rest) := by
    refine operations_pair isSum (operations_single first ?_)
      (operations_single second closed.multiplicative?) closed.additive?
    rintro c ⟨⟩
    exact noProduct
  have multiplicative (isProduct : multiplicative? op.mark = some op) :
      sum comma nested text = some (.binary op a b, rest) :=
    operations_single (operations_pair isProduct first second closed.multiplicative?)
      closed.additive?
  cases op with
  | add => exact additive rfl rfl
  | sub => exact additive rfl rfl
  | mul => exact multiplicative rfl
  | div => exact multiplicative rfl

theorem dropPrefix?_append (mark rest : List Char) : (mark ++ rest).dropPrefix? mark = some rest :=
  List.dropPrefix?_eq_some_iff.mpr ⟨mark, rfl, BEq.refl mark⟩

theorem dropPrefix?_cons (c : Char) (rest : List Char) : (c :: rest).dropPrefix? [c] = some rest :=
  dropPrefix?_append [c] rest

theorem factor_bracketed (inside : nested (text ++ ')' :: rest) = some (a, ')' :: rest)) :
    factor comma nested ('(' :: (text ++ ')' :: rest)) = some (a, rest) := by
  unfold factor
  simp only [inside, Option.bind_eq_bind, Option.bind_some, dropPrefix?_cons]
  rfl

theorem factor_number {value : Written} (legible : value.Legible) (separate : Separate rest) :
    factor comma nested (value.toText.toList ++ rest) = some (.number value, rest) := by
  obtain ⟨negative, text, front, begins, read⟩ := exists_unsigned legible separate
  have figure : ∀ c ∈ ((if negative then ['-'] else []) ++ text).head?, Text.IsFigure c := by
    intro c first
    cases negative with
    | true =>
      cases first
      exact .inr (.inl rfl)
    | false => exact .inl (begins c first)
  have noName : (((if negative then ['-'] else []) ++ text).takeWhile Char.isAlpha) = [] :=
    (span_append (List.forall_mem_nil _) fun c first => (figure c first).isAlpha_eq_false).1
  rw [front]
  unfold factor
  split
  · next inner isBracket =>
    rw [isBracket] at figure
    exact absurd (figure '(' rfl) (by decide)
  · rw [noName, signed_append negative begins, read]
    rfl

theorem factor_name {name : List Char} (nonempty : name ≠ [])
    (letters : name.all Char.isAlpha = true) (outside : ∀ c ∈ rest.head?, c.isAlpha = false) :
    factor comma nested (name ++ rest) = named comma nested name rest := by
  rw [List.all_eq_true] at letters
  obtain ⟨taken, dropped⟩ := span_append letters outside
  cases name with
  | nil => exact absurd rfl nonempty
  | cons first others =>
    have notBracket : first ≠ '(' := fun same =>
      absurd (letters first (by simp)) (by rw [same]; decide)
    unfold factor
    split
    · next inner isBracket => exact absurd (List.cons.inj isBracket).1 notBracket
    · rw [taken, dropped]

theorem factor_time (separate : Separate rest) :
    factor comma nested ('t' :: rest) = some (.time, rest) :=
  factor_name (List.cons_ne_nil 't' []) (by decide) fun c first => (separate c first).2.1

theorem factor_call {name : List Char} (nonempty : name ≠ []) (notTime : name ≠ ['t'])
    (letters : name.all Char.isAlpha = true) :
    factor comma nested (name ++ '(' :: rest) = arguments comma nested name rest := by
  have outside : ∀ c ∈ ('(' :: rest).head?, c.isAlpha = false := by
    rintro c ⟨⟩
    rfl
  rw [factor_name nonempty letters outside]
  unfold named
  split
  · exact absurd rfl notTime
  · rw [dropPrefix?_cons]
    rfl

theorem factor_compare (function : Comparison) {x y : List Char}
    (first : nested (x ++ (comma ++ (y ++ ')' :: rest))) = some (a, comma ++ (y ++ ')' :: rest)))
    (second : nested (y ++ ')' :: rest) = some (b, ')' :: rest)) :
    factor comma nested (function.name ++ '(' :: (x ++ (comma ++ (y ++ ')' :: rest)))) =
      some (.compare function a b, rest) := by
  have found : [Comparison.less, .max, .min].find? (·.name == function.name) = some function := by
    cases function <;> rfl
  rw [factor_call (by cases function <;> decide) (by cases function <;> decide)
    (by cases function <;> decide)]
  unfold arguments
  split
  · next isChoose => cases function <;> cases isChoose
  · simp only [found, first, dropPrefix?_append, dropPrefix?_cons, second, Option.bind_eq_bind,
      Option.bind_some]
    rfl

theorem factor_choose {condition yes no : List Char}
    (first : nested (condition ++ (comma ++ (yes ++ (comma ++ (no ++ ')' :: rest))))) =
      some (a, comma ++ (yes ++ (comma ++ (no ++ ')' :: rest)))))
    (second : nested (yes ++ (comma ++ (no ++ ')' :: rest))) =
      some (b, comma ++ (no ++ ')' :: rest)))
    (third : nested (no ++ ')' :: rest) = some (c, ')' :: rest)) :
    factor comma nested (['i', 'f'] ++ '(' ::
        (condition ++ (comma ++ (yes ++ (comma ++ (no ++ ')' :: rest)))))) =
      some (.choose a b c, rest) := by
  rw [factor_call (by decide) (by decide) (by decide)]
  simp only [arguments, first, dropPrefix?_append, dropPrefix?_cons, second, third,
    Option.bind_eq_bind, Option.bind_some]
  rfl

def IsComma (comma : List Char) : Prop := comma = [','] ∨ comma = ['\\', ',']

theorem closed_comma (isComma : IsComma comma) (rest : List Char) : Closed (comma ++ rest) := by
  rcases isComma with rfl | rfl
  · rintro c ⟨⟩
    exact .inr (.inl rfl)
  · rintro c ⟨⟩
    exact .inr (.inr rfl)

/-- Whether a formula is read from its text, as an operand and as a whole; its length is depth
enough. The two are proved together: an operation takes operands, and brackets and calls take
wholes. -/
structure ReadsBack (comma : List Char) (formula : Formula) : Prop where
  operand : ∀ depth rest, (operandChars comma formula).length ≤ depth → Separate rest →
    factor comma (within comma depth) (operandChars comma formula ++ rest) = some (formula, rest)
  whole : ∀ depth rest, (formula.toChars comma).length ≤ depth → Closed rest →
    sum comma (within comma depth) (formula.toChars comma ++ rest) = some (formula, rest)

theorem ReadsBack.of_alone (alone : a.isBinary = false)
    (operand : ∀ depth rest, (a.toChars comma).length ≤ depth → Separate rest →
      factor comma (within comma depth) (a.toChars comma ++ rest) = some (a, rest)) :
    ReadsBack comma a := by
  have chars : operandChars comma a = a.toChars comma := by
    rw [operandChars, bracketed, alone]
    rfl
  refine ⟨chars ▸ operand, fun depth rest enough closed => ?_⟩
  exact sum_of_factor (operand depth rest enough closed.separate) closed

theorem ReadsBack.within_eq (back : ReadsBack comma a) {depth : Nat}
    (enough : (a.toChars comma).length < depth) (closed : Closed rest) :
    within comma depth (a.toChars comma ++ rest) = some (a, rest) := by
  cases depth with
  | zero => cases enough
  | succ depth => exact back.whole depth rest (Nat.le_of_lt_succ enough) closed

theorem ReadsBack.binary (op : Operation) (left : ReadsBack comma a) (right : ReadsBack comma b) :
    ReadsBack comma (.binary op a b) := by
  have whole : ∀ depth rest, ((Formula.binary op a b).toChars comma).length ≤ depth →
      Closed rest → sum comma (within comma depth) ((Formula.binary op a b).toChars comma ++ rest) =
        some (.binary op a b, rest) := by
    intro depth rest enough closed
    have split : (Formula.binary op a b).toChars comma ++ rest =
        operandChars comma a ++ op.mark :: (operandChars comma b ++ rest) := by
      simp [toChars, operandChars]
    have lengths : (operandChars comma a).length + (operandChars comma b).length < depth := by
      change (operandChars comma a ++ op.mark :: operandChars comma b).length ≤ depth at enough
      rw [List.length_append, List.length_cons] at enough
      omega
    rw [split]
    exact sum_of_factors op
      (left.operand depth _ (by omega) (separate_mark op _))
      (right.operand depth rest (by omega) closed.separate) closed
  refine ⟨fun depth rest enough separate => ?_, whole⟩
  have split : operandChars comma (.binary op a b) ++ rest =
      '(' :: ((Formula.binary op a b).toChars comma ++ ')' :: rest) := by
    simp [operandChars, bracketed, isBinary]
  have lengths : ((Formula.binary op a b).toChars comma).length + 1 < depth := by
    simp only [operandChars, bracketed, isBinary, if_true, List.length_cons,
      List.length_append, List.length_nil] at enough
    omega
  rw [split]
  -- The brackets take one step of the depth; two characters more pay for it.
  refine factor_bracketed ?_
  cases depth with
  | zero => cases lengths
  | succ depth => exact whole depth _ (by omega) (closed_bracket rest)

theorem ReadsBack.compare (isComma : IsComma comma) (function : Comparison)
    (first : ReadsBack comma a) (second : ReadsBack comma b) :
    ReadsBack comma (.compare function a b) := by
  refine .of_alone rfl fun depth rest enough _ => ?_
  have split : (Formula.compare function a b).toChars comma ++ rest = function.name ++
      '(' :: (a.toChars comma ++ (comma ++ (b.toChars comma ++ ')' :: rest))) := by
    simp [toChars]
  simp only [toChars, List.length_append, List.length_cons] at enough
  rw [split]
  exact factor_compare function
    (first.within_eq (by omega) (closed_comma isComma _))
    (second.within_eq (by omega) (closed_bracket rest))

theorem ReadsBack.choose (isComma : IsComma comma) (first : ReadsBack comma a)
    (second : ReadsBack comma b) (third : ReadsBack comma c) :
    ReadsBack comma (.choose a b c) := by
  refine .of_alone rfl fun depth rest enough _ => ?_
  have split : (Formula.choose a b c).toChars comma ++ rest = ['i', 'f'] ++
      '(' :: (a.toChars comma ++
        (comma ++ (b.toChars comma ++ (comma ++ (c.toChars comma ++ ')' :: rest))))) := by
    simp [toChars]
  simp only [toChars, List.length_append, List.length_cons] at enough
  rw [split]
  exact factor_choose
    (first.within_eq (by omega) (closed_comma isComma _))
    (second.within_eq (by omega) (closed_comma isComma _))
    (third.within_eq (by omega) (closed_bracket rest))

/-- Every formula whose numbers can be read is read from its text. -/
theorem readsBack (isComma : IsComma comma) (legible : a.Legible) : ReadsBack comma a := by
  induction a with
  | number value => exact .of_alone rfl fun _ _ _ => factor_number legible
  | time => exact .of_alone rfl fun _ _ _ => factor_time
  | binary op _ _ left right => exact .binary op (left legible.1) (right legible.2)
  | compare function _ _ first second =>
    exact .compare isComma function (first legible.1) (second legible.2)
  | choose _ _ _ first second third =>
    exact .choose isComma (first legible.1) (second legible.2.1) (third legible.2.2)

theorem read_toChars {comma : String} (isComma : IsComma comma.toList) (legible : a.Legible) :
    read comma (String.ofList (a.toChars comma.toList)) = some a := by
  have ended : Closed [] := fun c first => by cases first
  have whole := (readsBack isComma legible).within_eq (Nat.lt_succ_self _) ended
  rw [List.append_nil] at whole
  unfold read
  rw [String.toList_ofList, whole]

end Screencast.Formula
