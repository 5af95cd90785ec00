import Screencast.Number.Basic

/-!
Putting things in the order of a number that each has. Things with one number keep their order;
`sortOn` inserts one thing after another behind those that do not come after it.
-/

namespace Screencast.Order

variable {α β : Type} [Number α]

/-- Puts `x` behind those that do not come after it; the list is in reverse. -/
def insertLater (key : β → α) (x : β) : List β → List β
  | [] => [x]
  | last :: earlier =>
    if key x < key last then last :: insertLater key x earlier else x :: last :: earlier

def insertAll (key : β → α) (xs sorted : List β) : List β :=
  xs.foldl (fun acc x => insertLater key x acc) sorted

def sortOn (key : β → α) (xs : List β) : List β :=
  (insertAll key xs []).reverse

theorem insertLater_perm (key : β → α) (x : β) (sorted : List β) :
    (insertLater key x sorted).Perm (x :: sorted) := by
  induction sorted with
  | nil => exact .refl _
  | cons last earlier ih =>
    unfold insertLater
    split
    · exact (ih.cons last).trans (.swap ..)
    · exact .refl _

theorem insertAll_perm (key : β → α) (xs sorted : List β) :
    (insertAll key xs sorted).Perm (xs ++ sorted) := by
  induction xs generalizing sorted with
  | nil => exact .refl _
  | cons x xs ih =>
    refine (ih _).trans ?_
    exact ((insertLater_perm key x sorted).append_left xs).trans List.perm_middle

theorem sortOn_perm (key : β → α) (xs : List β) : (sortOn key xs).Perm xs := by
  have all := insertAll_perm key xs []
  rw [List.append_nil] at all
  exact (List.reverse_perm _).trans all

end Screencast.Order
