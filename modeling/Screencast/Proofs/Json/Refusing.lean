import Screencast.Json.Reader
import Screencast.Proofs.Steps

/-!
Why a text is refused: it is no document, or a whole number in it is too long.
-/

namespace Screencast.Json

inductive Refusal : Failure → Prop
  | invalid : Refusal .invalidJson
  | notAnInteger (text : String) : Refusal (.notAnInteger text)
  | tooManyDigits (count : Nat) : Refusal (.tooManyDigits count)

namespace Reader

theorem body_failsBy (s : List Char) : FailsBy Refusal (body s) := by
  fun_induction body s
  all_goals first
    | exact .of_ok _
    | exact .of_error .invalid
    | apply FailsBy.of_map; assumption

theorem toInteger_failsBy (text : String) : FailsBy Refusal (NumberText.toInteger text) := by
  unfold NumberText.toInteger
  dsimp only
  split
  · exact .of_error (.notAnInteger text)
  · split
    · exact .of_error (.tooManyDigits _)
    · exact .of_ok _

theorem number_failsBy (s : List Char) : FailsBy Refusal (number s) := by
  unfold number
  split
  split
  · exact .of_error .invalid
  · dsimp only
    split
    · exact .of_bind (toInteger_failsBy _) fun _ => .of_ok _
    · split
      · exact .of_ok _
      · exact .of_error .invalid

variable {depth : Nat}

theorem value_failsBy_succ (itemsFail : ∀ s, FailsBy Refusal (items depth s))
    (membersFail : ∀ s, FailsBy Refusal (members depth s)) (s : List Char) :
    FailsBy Refusal (value (depth + 1) s) := by
  unfold value
  split
  · exact .of_bind (body_failsBy _) fun _ => .of_ok _
  · split
    · exact .of_ok _
    · exact .of_bind (itemsFail _) fun _ => .of_ok _
  · split
    · exact .of_ok _
    · exact .of_bind (membersFail _) fun _ => .of_ok _
  all_goals first
    | exact .of_ok _
    | exact number_failsBy _

theorem items_failsBy_succ (valueFails : ∀ s, FailsBy Refusal (value depth s))
    (itemsFail : ∀ s, FailsBy Refusal (items depth s)) (s : List Char) :
    FailsBy Refusal (items (depth + 1) s) := by
  rw [items]
  refine .of_bind (valueFails s) fun (first, left) => ?_
  dsimp only
  split
  · exact .of_bind (itemsFail _) fun _ => .of_ok _
  · exact .of_ok _
  · exact .of_error .invalid

theorem members_failsBy_succ (valueFails : ∀ s, FailsBy Refusal (value depth s))
    (membersFail : ∀ s, FailsBy Refusal (members depth s)) (s : List Char) :
    FailsBy Refusal (members (depth + 1) s) := by
  unfold members
  split
  · exact .of_error .invalid
  · next steps rest same =>
    obtain rfl : depth = steps := Nat.succ.inj same
    refine .of_bind (body_failsBy _) fun (key, left) => ?_
    dsimp only
    split
    · refine .of_bind (valueFails _) fun (first, left) => ?_
      dsimp only
      split
      · exact .of_bind (membersFail _) fun _ => .of_ok _
      · exact .of_ok _
      · exact .of_error .invalid
    · exact .of_error .invalid
  · exact .of_error .invalid

/-- The three readers call each other one step less deep, so one induction is for all of them. -/
theorem steps_failBy (depth : Nat) : (∀ s, FailsBy Refusal (value depth s)) ∧
    (∀ s, FailsBy Refusal (items depth s)) ∧ ∀ s, FailsBy Refusal (members depth s) := by
  induction depth with
  | zero =>
    refine ⟨fun s => ?_, fun s => ?_, fun s => ?_⟩
    · rw [value]
      exact .of_error .invalid
    · rw [items]
      exact .of_error .invalid
    · rw [members]
      exact .of_error .invalid
  | succ depth ih =>
    obtain ⟨values, lists, tables⟩ := ih
    exact ⟨value_failsBy_succ lists tables, items_failsBy_succ values lists,
      members_failsBy_succ values tables⟩

end Reader

/-- A text that holds no document is refused for one of these causes. -/
theorem parse_failsBy (text : String) : FailsBy Refusal (parse text) := by
  unfold parse Reader.read
  refine .of_bind ((Reader.steps_failBy _).1 _) fun (result, left) => ?_
  dsimp only
  split
  · exact .of_ok _
  · exact .of_error .invalid

end Screencast.Json
