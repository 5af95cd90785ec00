import Screencast.Failure
import Mathlib.Data.List.Forall2

/-!
Steps that may fail, one after another. A walk through a list, one step for each of its items,
either takes them all or stops at the first whose step fails.
-/

namespace Screencast

variable {β γ : Type}

def StopsAt (passes stops : β → Prop) (items : List β) : Prop :=
  ∃ front item rest, items = front ++ item :: rest ∧ (∀ before ∈ front, passes before) ∧ stops item

section StopsAt

variable {passes stops : β → Prop}

theorem not_stopsAt_nil : ¬ StopsAt passes stops [] := by
  rintro ⟨front, item, rest, split, -⟩
  exact List.append_ne_nil_of_right_ne_nil front (List.cons_ne_nil item rest) split.symm

theorem stopsAt_cons {item : β} {items : List β} : StopsAt passes stops (item :: items) ↔
    stops item ∨ passes item ∧ StopsAt passes stops items := by
  constructor
  · rintro ⟨front, last, rest, split, passed, stopped⟩
    cases front with
    | nil =>
      obtain ⟨rfl, -⟩ := List.cons.inj split
      exact Or.inl stopped
    | cons first front =>
      obtain ⟨rfl, rfl⟩ := List.cons.inj split
      rw [List.forall_mem_cons] at passed
      exact Or.inr ⟨passed.1, front, last, rest, rfl, passed.2, stopped⟩
  · rintro (stopped | ⟨first, front, last, rest, rfl, passed, stopped⟩)
    · exact ⟨[], item, items, rfl, List.forall_mem_nil _, stopped⟩
    · exact ⟨item :: front, last, rest, rfl, List.forall_mem_cons.mpr ⟨first, passed⟩, stopped⟩

end StopsAt

/-- A walk through a list that takes a value from each item, and ends with the list or at the first
item that is refused. -/
inductive Walked (takes : β → γ → Prop) (refuses : β → Failure → Prop) :
    List β → Except Failure Unit → List γ → Prop
  | all {items : List β} {values : List γ} (taken : List.Forall₂ takes items values) :
    Walked takes refuses items (.ok ()) values
  | upTo {front : List β} {item : β} {rest : List β} {values : List γ} {cause : Failure}
    (taken : List.Forall₂ takes front values) (refused : refuses item cause) :
    Walked takes refuses (front ++ item :: rest) (.error cause) values

namespace Walked

variable {takes : β → γ → Prop} {refuses : β → Failure → Prop} {item : β} {items : List β}
  {value : γ} {values : List γ} {result : Except Failure Unit}

theorem nil : Walked takes refuses [] (.ok ()) [] := .all .nil

theorem stop {cause : Failure} (refused : refuses item cause) :
    Walked takes refuses (item :: items) (.error cause) [] :=
  .upTo .nil refused

theorem cons (taken : takes item value) (later : Walked takes refuses items result values) :
    Walked takes refuses (item :: items) result (value :: values) := by
  cases later with
  | all others => exact .all (.cons taken others)
  | upTo others refused => exact .upTo (.cons taken others) refused

theorem forall₂ (walked : Walked takes refuses items (.ok ()) values) :
    List.Forall₂ takes items values := by
  cases walked with
  | all taken => exact taken

end Walked

theorem exists_of_mem_left {r : β → γ → Prop} {items : List β} {values : List γ}
    (all : List.Forall₂ r items values) {item : β} (member : item ∈ items) :
    ∃ value ∈ values, r item value := by
  induction all with
  | nil => exact absurd member List.not_mem_nil
  | cons first _ ih =>
    rcases List.mem_cons.mp member with rfl | member
    · exact ⟨_, List.mem_cons_self, first⟩
    · obtain ⟨value, found, related⟩ := ih member
      exact ⟨value, List.mem_cons_of_mem _ found, related⟩

def FailsBy (causes : Failure → Prop) (result : Except Failure β) : Prop :=
  ∀ cause, result = .error cause → causes cause

namespace FailsBy

variable {causes : Failure → Prop}

theorem of_ok (value : β) : FailsBy causes (.ok value) := by
  rintro _ ⟨⟩

theorem of_error {cause : Failure} (holds : causes cause) :
    FailsBy causes (.error cause : Except Failure β) := by
  rintro _ ⟨⟩
  exact holds

theorem of_bind {result : Except Failure β} {next : β → Except Failure γ}
    (first : FailsBy causes result) (onward : ∀ value, FailsBy causes (next value)) :
    FailsBy causes (result >>= next) := by
  cases result with
  | ok value => exact onward value
  | error cause =>
    rintro _ ⟨⟩
    exact first cause rfl

theorem of_map {result : Except Failure β} {next : β → γ} (first : FailsBy causes result) :
    FailsBy causes (result.map next) := by
  cases result with
  | ok value => exact of_ok (next value)
  | error cause =>
    rintro _ ⟨⟩
    exact first cause rfl

theorem of_foldlM {step : γ → β → Except Failure γ}
    (each : ∀ value item, FailsBy causes (step value item)) (items : List β) (start : γ) :
    FailsBy causes (items.foldlM step start) := by
  induction items generalizing start with
  | nil => exact of_ok start
  | cons item items ih =>
    rw [List.foldlM_cons]
    exact of_bind (each start item) ih

end FailsBy

section Steps

variable {result : Except Failure β} {next : β → Except Failure γ} {cause : Failure}

theorem bind_eq_ok_iff {value : γ} : result >>= next = .ok value ↔
    ∃ first, result = .ok first ∧ next first = .ok value := by
  cases result <;> simp [bind, Except.bind]

theorem bind_eq_error_iff : result >>= next = .error cause ↔
    result = .error cause ∨ ∃ first, result = .ok first ∧ next first = .error cause := by
  cases result <;> simp [bind, Except.bind]

variable {items : List β}

theorem mapM_eq_ok_iff {values : List γ} : items.mapM next = .ok values ↔
    List.Forall₂ (fun item value => next item = .ok value) items values := by
  induction items generalizing values with
  | nil =>
    rw [List.mapM_nil, List.forall₂_nil_left_iff]
    exact ⟨fun same => (Except.ok.inj same).symm, fun same => same ▸ rfl⟩
  | cons item items ih =>
    rw [List.mapM_cons, List.forall₂_cons_left_iff, bind_eq_ok_iff]
    constructor
    · rintro ⟨value, first, read⟩
      obtain ⟨rest, others, made⟩ := bind_eq_ok_iff.mp read
      exact ⟨value, rest, first, ih.mp others, (Except.ok.inj made).symm⟩
    · rintro ⟨value, rest, first, others, rfl⟩
      exact ⟨value, first, bind_eq_ok_iff.mpr ⟨rest, ih.mpr others, rfl⟩⟩

theorem mapM_eq_error_iff : items.mapM next = .error cause ↔
    StopsAt (fun item => ∃ value, next item = .ok value) (fun item => next item = .error cause)
      items := by
  induction items with
  | nil =>
    constructor
    · rintro ⟨⟩
    · exact fun stopped => absurd stopped not_stopsAt_nil
  | cons item items ih =>
    have rest : ∀ value, (do
        let values ← items.mapM next
        pure (value :: values)) = Except.error cause ↔ items.mapM next = .error cause := by
      intro value
      rw [bind_eq_error_iff]
      exact or_iff_left fun ⟨_, _, made⟩ => nomatch made
    rw [List.mapM_cons, stopsAt_cons, bind_eq_error_iff, ← ih]
    simp only [rest, exists_and_right]

end Steps

end Screencast
