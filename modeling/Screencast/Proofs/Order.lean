import Screencast.Order
import Screencast.Proofs.Number.Lawful

/-!
`sortOn` puts things in the order of their keys and keeps things with tied keys in the order in
which they came.
-/

namespace Screencast.Order

variable {α β : Type} [Number α]

def tied (key : β → α) (x y : β) : Bool :=
  key x ≤ key y && key y ≤ key x

structure StablySorted (key : β → α) (xs sorted : List β) : Prop where
  perm : sorted.Perm xs
  ordered : sorted.Pairwise fun x y => key x ≤ key y
  stable : ∀ x, sorted.filter (tied key x) = xs.filter (tied key x)

variable {key : β → α}

theorem insertLater_of_last {x : β} {sorted : List β} (last : ∀ y ∈ sorted, ¬ key x < key y) :
    insertLater key x sorted = x :: sorted := by
  cases sorted with
  | nil => rfl
  | cons y sorted => rw [insertLater, if_neg (last y (by simp))]

theorem insertAll_of_earlier {last : β} {xs : List β} (earlier : ∀ x ∈ xs, key x < key last)
    (sorted : List β) : ∃ rest, insertAll key xs (last :: sorted) = last :: rest := by
  induction xs generalizing sorted with
  | nil => exact ⟨sorted, rfl⟩
  | cons x xs ih =>
    obtain ⟨rest, same⟩ := ih (fun y member => earlier y (List.mem_cons_of_mem _ member))
      (insertLater key x sorted)
    refine ⟨rest, ?_⟩
    rw [← same]
    change insertAll key xs (insertLater key x (last :: sorted)) = _
    rw [insertLater, if_pos (earlier x (by simp))]

theorem getLast?_sortOn {before after : List β} {last : β}
    (notLater : ∀ x ∈ before, ¬ key last < key x) (earlier : ∀ x ∈ after, key x < key last) :
    (sortOn key (before ++ last :: after)).getLast? = some last := by
  have placed : insertLater key last (insertAll key before []) =
      last :: insertAll key before [] :=
    insertLater_of_last fun x member =>
      notLater x (by simpa using (insertAll_perm key before []).subset member)
  obtain ⟨rest, same⟩ := insertAll_of_earlier earlier (insertAll key before [])
  have all : insertAll key (before ++ last :: after) [] = last :: rest := by
    rw [← same, ← placed]
    exact List.foldl_append
  rw [sortOn, List.getLast?_reverse, all, List.head?_cons]

variable [LawfulNumber α]

theorem insertLater_ordered {x : β} {sorted : List β}
    (comparable : ∀ y ∈ x :: sorted, key y ≤ key y)
    (ordered : sorted.Pairwise fun x y => key y ≤ key x) :
    (insertLater key x sorted).Pairwise fun x y => key y ≤ key x := by
  induction sorted with
  | nil => simp [insertLater]
  | cons last earlier ih =>
    obtain ⟨below, rest⟩ := List.pairwise_cons.mp ordered
    have self := comparable x (by simp)
    unfold insertLater
    split
    · next before =>
      refine List.pairwise_cons.mpr ⟨?_, ih (fun y member => comparable y (by grind)) rest⟩
      intro y member
      rcases List.mem_cons.mp ((insertLater_perm key x earlier).subset member) with rfl | old
      · exact Number.le_of_lt before
      · exact below y old
    · next notBefore =>
      have last_le := Number.le_of_not_lt self (comparable last (by simp)) notBefore
      refine List.pairwise_cons.mpr ⟨?_, ordered⟩
      intro y member
      rcases List.mem_cons.mp member with rfl | old
      · exact last_le
      · exact LawfulNumber.le_trans (below y old) last_le

theorem insertAll_ordered {xs sorted : List β}
    (comparable : ∀ y ∈ xs ++ sorted, key y ≤ key y)
    (ordered : sorted.Pairwise fun x y => key y ≤ key x) :
    (insertAll key xs sorted).Pairwise fun x y => key y ≤ key x := by
  induction xs generalizing sorted with
  | nil => exact ordered
  | cons x xs ih =>
    apply ih
    · intro y member
      apply comparable
      rcases List.mem_append.mp member with new | placed
      · simp [new]
      · have old := (insertLater_perm key x sorted).subset placed
        grind
    · exact insertLater_ordered (fun y member => comparable y (by grind)) ordered

/-- What is tied with `z` is passed over by nothing that is tied with it as well. -/
theorem filter_insertLater (z x : β) (sorted : List β) :
    (insertLater key x sorted).filter (tied key z) = (x :: sorted).filter (tied key z) := by
  induction sorted with
  | nil => rfl
  | cons last earlier ih =>
    unfold insertLater
    split
    · next before =>
      rw [List.filter_cons, ih]
      by_cases lastTied : tied key z last = true
      · have notTied : ¬ tied key z x = true := by
          intro xTied
          simp only [tied, Bool.and_eq_true, decide_eq_true_eq] at lastTied xTied
          exact Number.not_le_of_lt before (LawfulNumber.le_trans lastTied.2 xTied.1)
        simp [lastTied, notTied]
      · simp [List.filter_cons, lastTied]
    · rfl

theorem filter_insertAll (z : β) (xs sorted : List β) :
    (insertAll key xs sorted).reverse.filter (tied key z) =
      sorted.reverse.filter (tied key z) ++ xs.filter (tied key z) := by
  induction xs generalizing sorted with
  | nil => simp [insertAll]
  | cons x xs ih =>
    change (insertAll key xs (insertLater key x sorted)).reverse.filter (tied key z) = _
    rw [ih, List.filter_reverse, filter_insertLater, ← List.filter_reverse, List.reverse_cons,
      List.filter_append, List.append_assoc, ← List.filter_append, List.singleton_append]

theorem sortOn_stablySorted {xs : List β} (comparable : ∀ x ∈ xs, key x ≤ key x) :
    StablySorted key xs (sortOn key xs) where
  perm := sortOn_perm key xs
  ordered := by
    have descending : (insertAll key xs []).Pairwise fun x y => key y ≤ key x :=
      insertAll_ordered (by simpa using comparable) .nil
    exact List.pairwise_reverse.mpr descending
  stable z := by
    have all : (insertAll key xs []).reverse.filter (tied key z) = _ := filter_insertAll z xs []
    simpa [sortOn] using all

omit [LawfulNumber α] in
theorem mem_of_same_ties {xs ys : List β}
    (same : ∀ x, xs.filter (tied key x) = ys.filter (tied key x)) {x : β} (member : x ∈ xs)
    (comparable : key x ≤ key x) : x ∈ ys := by
  have kept : x ∈ xs.filter (tied key x) :=
    List.mem_filter.mpr ⟨member, by simp [tied, comparable]⟩
  rw [same] at kept
  exact (List.mem_filter.mp kept).1

omit [LawfulNumber α] in
/-- What is in order is determined by the things that are tied with each. -/
theorem eq_of_ordered {xs ys : List β} (comparable : ∀ x ∈ xs ++ ys, key x ≤ key x)
    (ordered : xs.Pairwise fun x y => key x ≤ key y)
    (orderedToo : ys.Pairwise fun x y => key x ≤ key y)
    (same : ∀ x, xs.filter (tied key x) = ys.filter (tied key x)) : xs = ys := by
  have back : ∀ x, ys.filter (tied key x) = xs.filter (tied key x) := fun x => (same x).symm
  induction xs generalizing ys with
  | nil =>
    cases ys with
    | nil => rfl
    | cons y ys => cases mem_of_same_ties back (by simp) (comparable y (by simp))
  | cons x xs ih =>
    cases ys with
    | nil => cases mem_of_same_ties same (by simp) (comparable x (by simp))
    | cons y ys =>
      obtain ⟨first, rest⟩ := List.pairwise_cons.mp ordered
      obtain ⟨firstToo, restToo⟩ := List.pairwise_cons.mp orderedToo
      have xSelf := comparable x (by simp)
      have ySelf := comparable y (by simp)
      -- Each of the two first things is in the other list too, and so not before its first.
      have x_le : key x ≤ key y := by
        rcases List.mem_cons.mp (mem_of_same_ties back (by simp) ySelf) with rfl | later
        · exact xSelf
        · exact first y later
      have y_le : key y ≤ key x := by
        rcases List.mem_cons.mp (mem_of_same_ties same (by simp) xSelf) with rfl | later
        · exact ySelf
        · exact firstToo x later
      have heads := same x
      rw [List.filter_cons_of_pos (by simp [tied, xSelf]),
        List.filter_cons_of_pos (by simp [tied, x_le, y_le])] at heads
      obtain rfl := (List.cons.inj heads).1
      have tails : ∀ z, xs.filter (tied key z) = ys.filter (tied key z) := fun z => by
        have whole := same z
        by_cases tiedToo : tied key z x = true
        · rw [List.filter_cons_of_pos tiedToo, List.filter_cons_of_pos tiedToo] at whole
          exact (List.cons.inj whole).2
        · rwa [List.filter_cons_of_neg tiedToo, List.filter_cons_of_neg tiedToo] at whole
      have equal : xs = ys := ih (fun z member => comparable z (by grind)) rest restToo tails
        fun z => (tails z).symm
      rw [equal]

theorem sortOn_of_ordered {xs : List β} (comparable : ∀ x ∈ xs, key x ≤ key x)
    (ordered : xs.Pairwise fun x y => key x ≤ key y) : sortOn key xs = xs := by
  obtain ⟨perm, orderedToo, stable⟩ := sortOn_stablySorted comparable
  refine eq_of_ordered (fun x member => comparable x ?_) orderedToo ordered stable
  exact (List.mem_append.mp member).elim (fun sorted => perm.subset sorted) id

/-- Things in order, those up to a bound come first. -/
theorem eq_filter_append_filter {bound : α} {xs : List β}
    (ordered : xs.Pairwise fun x y => key x ≤ key y) :
    xs = xs.filter (key · ≤ bound) ++ xs.filter (¬ key · ≤ bound) := by
  induction xs with
  | nil => rfl
  | cons x xs ih =>
    obtain ⟨first, rest⟩ := List.pairwise_cons.mp ordered
    by_cases early : key x ≤ bound
    · rw [List.filter_cons_of_pos (by simpa using early),
        List.filter_cons_of_neg (by simpa using early), List.cons_append, ← ih rest]
    · have late : ∀ y ∈ x :: xs, ¬ key y ≤ bound := by
        intro y member le
        rcases List.mem_cons.mp member with rfl | later
        · exact early le
        · exact early (LawfulNumber.le_trans (first y later) le)
      rw [List.filter_eq_nil_iff.mpr (by simpa using late),
        List.filter_eq_self.mpr (by simpa using late), List.nil_append]

omit [LawfulNumber α] in
theorem insertLater_map {γ : Type} (f : γ → β) (x : γ) (sorted : List γ) :
    insertLater key (f x) (sorted.map f) = (insertLater (key ∘ f) x sorted).map f := by
  induction sorted with
  | nil => rfl
  | cons last earlier ih =>
    simp only [List.map_cons, insertLater, Function.comp_apply]
    split
    · rw [List.map_cons, ih]
    · rfl

omit [LawfulNumber α] in
theorem sortOn_map {γ : Type} (f : γ → β) (xs : List γ) :
    sortOn key (xs.map f) = (sortOn (key ∘ f) xs).map f := by
  have all : ∀ sorted : List γ, insertAll key (xs.map f) (sorted.map f) =
      (insertAll (key ∘ f) xs sorted).map f := by
    induction xs with
    | nil => exact fun _ => rfl
    | cons x xs ih =>
      intro sorted
      change insertAll key (xs.map f) (insertLater key (f x) (sorted.map f)) = _
      rw [insertLater_map, ih]
      rfl
  rw [sortOn, sortOn, List.map_reverse]
  exact congrArg List.reverse (all [])

end Screencast.Order
