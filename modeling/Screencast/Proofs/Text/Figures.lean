import Mathlib.Data.List.Basic
import Screencast.Curve.Expr

/-!
Numbers as they are written: of which characters they consist, and what their digits stand for.
-/

namespace Screencast

theorem span_append {β : Type} {p : β → Bool} {xs ys : List β} (inside : ∀ x ∈ xs, p x = true)
    (outside : ∀ y ∈ ys.head?, p y = false) :
    (xs ++ ys).takeWhile p = xs ∧ (xs ++ ys).dropWhile p = ys := by
  have behind : ys.takeWhile p = [] ∧ ys.dropWhile p = ys := by
    cases ys with
    | nil => exact ⟨rfl, rfl⟩
    | cons y rest =>
      have fails := outside y rfl
      exact ⟨List.takeWhile_cons_of_neg (by simp [fails]),
        List.dropWhile_cons_of_neg (by simp [fails])⟩
  rw [List.takeWhile_append_of_pos inside, List.dropWhile_append_of_pos inside, behind.1,
    behind.2, List.append_nil]
  exact ⟨rfl, rfl⟩

namespace Text

def IsFigure (c : Char) : Prop := c.isDigit = true ∨ c = '-' ∨ c = '.'

instance (c : Char) : Decidable (IsFigure c) :=
  inferInstanceAs (Decidable (c.isDigit = true ∨ c = '-' ∨ c = '.'))

theorem IsFigure.ne {c other : Char} (figure : IsFigure c) (not : ¬ IsFigure other) : c ≠ other :=
  fun same => not (same ▸ figure)

theorem isAlpha_eq_false_of_isDigit {c : Char} (digit : c.isDigit = true) : c.isAlpha = false := by
  have codes : c.isDigit = (decide (48 ≤ c.val) && decide (c.val ≤ 57)) := rfl
  have upper : c.isUpper = decide (65 ≤ c.val ∧ c.val ≤ 90) := rfl
  have lower : c.isLower = (decide (97 ≤ c.val) && decide (c.val ≤ 122)) := rfl
  change (c.isUpper || c.isLower) = false
  rw [codes, Bool.and_eq_true, decide_eq_true_eq, decide_eq_true_eq] at digit
  rw [upper, lower]
  grind

theorem IsFigure.isAlpha_eq_false {c : Char} (figure : IsFigure c) : c.isAlpha = false := by
  rcases figure with digit | rfl | rfl
  · exact isAlpha_eq_false_of_isDigit digit
  · rfl
  · rfl

theorem isDigit_of_mem_toDigits {n : Nat} {c : Char} (member : c ∈ Nat.toDigits 10 n) :
    c.isDigit = true :=
  Nat.isDigit_of_mem_toDigits (by decide) (by decide) member

end Text

open Text

namespace Decimal

variable {d : Decimal}

theorem isDigit_of_mem_fraction {c : Char} (member : c ∈ d.fraction) : c.isDigit = true := by
  rcases List.mem_append.mp member with padding | digit
  · rw [List.eq_of_mem_replicate padding]
    rfl
  · exact isDigit_of_mem_toDigits digit

theorem isFigure_of_mem_chars {c : Char} (member : c ∈ d.chars) : IsFigure c := by
  unfold chars at member
  rw [List.mem_append, List.mem_append] at member
  rcases member with (sign | whole) | fraction
  · split at sign
    · exact .inr (.inl (List.mem_singleton.mp sign))
    · cases sign
  · exact .inl (isDigit_of_mem_toDigits whole)
  · split at fraction
    · cases fraction
    · rcases List.mem_cons.mp fraction with point | digit
      · exact .inr (.inr point)
      · exact .inl (isDigit_of_mem_fraction digit)

theorem length_fraction (some_place : 0 < d.places) : d.fraction.length = d.places := by
  have below : d.digits % tenTo d.places < 10 ^ d.places := Nat.mod_lt _ (tenTo_pos _)
  have fits := (Nat.length_toDigits_le_iff (by decide) some_place).mpr below
  unfold fraction paddedDigits
  rw [List.length_append, List.length_replicate]
  omega

theorem ofDigitChars_chars (some_place : 0 < d.places) :
    Nat.ofDigitChars 10 (d.whole ++ d.fraction) 0 = d.digits := by
  have whole : Nat.ofDigitChars 10 d.whole 0 = d.digits / tenTo d.places :=
    Nat.ofDigitChars_ten_toDigits
  have fraction : Nat.ofDigitChars 10 d.fraction 0 = d.digits % tenTo d.places := by
    rw [Decimal.fraction, paddedDigits, Nat.ofDigitChars_append, Nat.ofDigitChars_replicate_zero,
      Nat.mul_zero]
    exact Nat.ofDigitChars_ten_toDigits
  rw [Nat.ofDigitChars_append, Nat.ofDigitChars_eq_ofDigitChars_zero, whole, fraction,
    length_fraction some_place]
  exact Nat.div_add_mod d.digits (tenTo d.places)

end Decimal

theorem Exact.signed_natAbs (n : Int) : signed (decide (n < 0)) n.natAbs = n := by
  unfold signed
  by_cases negative : n < 0
  · rw [if_pos (by simpa using negative)]
    omega
  · rw [if_neg (by simpa using negative)]
    omega

theorem toList_toString_nat (n : Nat) : (toString n).toList = Nat.toDigits 10 n := by
  rw [Nat.toString_eq_repr, Nat.toList_repr]

theorem toList_toString_int (n : Int) :
    (toString n).toList =
      (if decide (n < 0) then ['-'] else []) ++ Nat.toDigits 10 n.natAbs := by
  rw [Int.toString_eq_repr, Int.repr_eq_if]
  split
  · have size : n.toNat = n.natAbs := by omega
    rw [decide_eq_false (by omega), Nat.toList_repr, size]
    rfl
  · have size : (-n).toNat = n.natAbs := by omega
    rw [decide_eq_true (by omega), String.toList_append, Nat.toList_repr, size]
    rfl

theorem isFigure_of_mem_int {n : Int} {c : Char} (member : c ∈ (toString n).toList) :
    IsFigure c := by
  rw [toList_toString_int, List.mem_append] at member
  rcases member with sign | digit
  · split at sign
    · exact .inr (.inl (List.mem_singleton.mp sign))
    · cases sign
  · exact .inl (isDigit_of_mem_toDigits digit)

end Screencast
