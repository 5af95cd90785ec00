import Screencast.Json.Coerce
import Screencast.Proofs.Number.Range
import Screencast.Proofs.Steps

/-!
What a JSON value must be to be taken for a number or for an object with a member.
-/

namespace Screencast.Json

open Rounding

variable {value entry : Json} {key : String}

def Oversized (value : Json) : Prop :=
  ∃ n : Int, value = .int n ∧ rim ≤ n.natAbs

theorem toFloat_eq_integerTooLarge : value.toFloat = .error .integerTooLarge ↔ value.Oversized := by
  cases value with
  | int n =>
    have isOversized : (Json.int n).Oversized ↔ rim ≤ n.natAbs := by
      constructor
      · rintro ⟨_, ⟨⟩, large⟩
        exact large
      · exact fun large => ⟨n, rfl, large⟩
    rw [isOversized, toFloat, Binary.ofInteger_eq]
    split <;> simp_all
  | string s =>
    have otherCause : NumberText.toFloat s ≠ .error .integerTooLarge := by
      unfold NumberText.toFloat
      split <;> simp
    simp [toFloat, otherCause, Oversized]
  | null | bool _ | float _ | array _ | object _ => simp [toFloat, Oversized]

theorem not_oversized_zero : ¬ (int 0).Oversized := by
  rintro ⟨_, ⟨⟩, large⟩
  exact absurd large (by decide +kernel)

theorem item_eq_ok : entry.item key = .ok value ↔ value ∈ entry.get? key := by
  cases entry with
  | object members =>
    rw [item, get?]
    cases Table.find? key members <;> simp
  | null | bool _ | int _ | float _ | string _ | array _ => simp [item, get?]

theorem item_ne_integerTooLarge : entry.item key ≠ .error .integerTooLarge := by
  cases entry with
  | object members =>
    rw [item]
    cases Table.find? key members <;> simp
  | null | bool _ | int _ | float _ | string _ | array _ => simp [item]

def IsObject (value : Json) : Prop :=
  ∃ members, value = .object members

theorem member_eq_ok {found : Option Json} :
    value.member key = .ok found ↔ value.IsObject ∧ value.get? key = found := by
  cases value with
  | object members => simp [member, get?, IsObject]
  | null | bool _ | int _ | float _ | string _ | array _ => simp [member, IsObject]

theorem isObject_of_memberOrNull {found : Json} (read : value.memberOrNull key = .ok found) :
    value.IsObject := by
  unfold memberOrNull at read
  obtain ⟨member, given, -⟩ := bind_eq_ok_iff.mp read
  exact (member_eq_ok.mp given).1

theorem memberOrNull_of_isObject (isObject : value.IsObject) :
    value.memberOrNull key = .ok ((value.get? key).getD .null) := by
  obtain ⟨members, rfl⟩ := isObject
  rfl

end Screencast.Json
