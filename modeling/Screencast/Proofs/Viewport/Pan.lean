import Mathlib.Data.List.Induction
import Mathlib.Data.List.Nodup
import Mathlib.Order.Nat
import Screencast.Proofs.Order
import Screencast.Proofs.Viewport.Run
import Screencast.Proofs.Viewport.Window
import Screencast.Proofs.Viewport.Zoom

/-!
What is kept of the pans from frame to frame. It follows the clock: a pan has noted the centre it
sets out from as soon as a frame has reached its start, and has handed on its target as soon as a
frame has passed its end. Both happen once, each in the first such frame.
-/

namespace Screencast

open Number

variable {α : Type}

namespace Phase

def begun : Phase α → Bool
  | before => false
  | inside _ | after => true

def past : Phase α → Bool
  | before | inside _ => false
  | after => true

variable [Number α] {time later start duration : α}

theorem begun_of_iff : (Phase.of time start duration).begun = true ↔ ¬ time < start := by
  unfold Phase.of
  dsimp only
  split
  · next notYet => simp [begun, notYet]
  · next opened => split <;> simp [begun, opened]

theorem past_of_iff : (Phase.of time start duration).past = true ↔
    ¬ time < start ∧ ¬ time ≤ Window.close start duration := by
  unfold Phase.of Window.close
  dsimp only
  split
  · next notYet => simp [past, notYet]
  · next opened =>
    split
    · next inside => simp [past, inside]
    · next closed => simp [past, opened, closed]

omit [Number α] in
theorem eq_after_of_past {phase : Phase α} (isPast : phase.past = true) : phase = .after := by
  cases phase with
  | before => cases isPast
  | inside progress => cases isPast
  | after => rfl

variable [LawfulNumber α]

theorem begun_of_le (le : time ≤ later) (begun : (Phase.of time start duration).begun = true) :
    (Phase.of later start duration).begun = true :=
  begun_of_iff.mpr fun notYet => begun_of_iff.mp begun (lt_of_le_of_lt le notYet)

theorem past_of_le (le : time ≤ later) (isPast : (Phase.of time start duration).past = true) :
    (Phase.of later start duration).past = true := by
  obtain ⟨opened, closed⟩ := past_of_iff.mp isPast
  exact past_of_iff.mpr ⟨fun notYet => opened (lt_of_le_of_lt le notYet),
    fun inside => closed (LawfulNumber.le_trans le inside)⟩

theorem begun_of_iff_le (known : start ≤ start) (comparable : time ≤ time) :
    (Phase.of time start duration).begun = true ↔ start ≤ time :=
  begun_of_iff.trans ⟨le_of_not_lt comparable known, not_lt_of_le⟩

theorem past_of_iff_lt (opens : start ≤ Window.close start duration) (comparable : time ≤ time) :
    (Phase.of time start duration).past = true ↔ Window.close start duration < time := by
  refine past_of_iff.trans ⟨fun closed => ?_, fun closed => ?_⟩
  · exact lt_of_not_le comparable (LawfulNumber.self_le_right opens) closed.2
  · exact ⟨not_lt_of_le (LawfulNumber.le_trans opens (le_of_lt closed)), not_le_of_lt closed⟩

end Phase

namespace Settled

variable (settled : Settled α) (turn : Nat) (frame : Frame α)

theorem find?_noteOrigin (other : Nat) :
    (settled.noteOrigin turn frame).origins.find? other =
      if turn = other then some (settled.origin turn frame) else settled.origins.find? other := by
  unfold noteOrigin origin
  split
  · next place noted =>
    rw [noted, Option.getD_some]
    split
    · next same => rw [← same, noted]
    · rfl
  · next unnoted => rw [Table.find?_put, unnoted, Option.getD_none]

theorem noteOrigin_committed : (settled.noteOrigin turn frame).committed = settled.committed := by
  unfold noteOrigin
  split <;> rfl

theorem noteOrigin_center : (settled.noteOrigin turn frame).center = settled.center := by
  unfold noteOrigin
  split <;> rfl

theorem noteOrigin_of_noted {place : Point α} (noted : settled.origins.find? turn = some place) :
    settled.noteOrigin turn frame = settled := by
  rw [noteOrigin, noted]

end Settled

variable [Number α]

namespace Command

def panBegun (time : α) : Command α → Bool
  | pan _ start duration => (Phase.of time start duration).begun
  | _ => false

def panPast (time : α) : Command α → Bool
  | pan _ start duration => (Phase.of time start duration).past
  | _ => false

def panBegunAt (commands : List (Command α)) (turn : Nat) (time : α) : Bool :=
  commands[turn]?.any (panBegun time)

def panPastAt (commands : List (Command α)) (turn : Nat) (time : α) : Bool :=
  commands[turn]?.any (panPast time)

theorem panBegun_of_panPast {time : α} {command : Command α}
    (isPast : command.panPast time = true) : command.panBegun time = true := by
  cases command with
  | pan goal start duration =>
    exact Phase.begun_of_iff.mpr (Phase.past_of_iff.mp isPast).1
  | follow => cases isPast
  | zoom => cases isPast
  | hold => cases isPast

theorem panBegunAt_of_placed {commands : List (Command α)} {turn : Nat} {goal : Target α}
    {start length : α} (placed : commands[turn]? = some (.pan goal start length)) (time : α) :
    panBegunAt commands turn time = (Phase.of time start length).begun := by
  rw [panBegunAt, placed]
  rfl

theorem panPastAt_of_placed {commands : List (Command α)} {turn : Nat} {goal : Target α}
    {start length : α} (placed : commands[turn]? = some (.pan goal start length)) (time : α) :
    panPastAt commands turn time = (Phase.of time start length).past := by
  rw [panPastAt, placed]
  rfl

theorem exists_pan_of_begunAt {commands : List (Command α)} {turn : Nat} {time : α}
    (begun : panBegunAt commands turn time = true) :
    ∃ goal start length, commands[turn]? = some (.pan goal start length) := by
  unfold panBegunAt at begun
  cases placed : commands[turn]? with
  | none => simp [placed] at begun
  | some command =>
    cases command with
    | pan goal start length => exact ⟨goal, start, length, rfl⟩
    | _ => simp [placed, panBegun] at begun

theorem panBegunAt_of_panPastAt {commands : List (Command α)} {turn : Nat} {time : α}
    (isPast : panPastAt commands turn time = true) : panBegunAt commands turn time = true := by
  unfold panPastAt at isPast
  unfold panBegunAt
  cases placed : commands[turn]? with
  | none => simp [placed] at isPast
  | some command =>
    rw [placed] at isPast
    exact panBegun_of_panPast isPast

section Placed

variable [LawfulNumber α] {commands : List (Command α)} {turn : Nat} {goal : Target α}
  {start length time : α} (placed : commands[turn]? = some (.pan goal start length))
include placed

theorem panBegunAt_iff_le (known : start ≤ start) (comparable : time ≤ time) :
    panBegunAt commands turn time = true ↔ start ≤ time := by
  rw [panBegunAt_of_placed placed, Phase.begun_of_iff_le known comparable]

theorem panPastAt_iff_lt (opens : start ≤ Window.close start length) (comparable : time ≤ time) :
    panPastAt commands turn time = true ↔ Window.close start length < time := by
  rw [panPastAt_of_placed placed, Phase.past_of_iff_lt opens comparable]

end Placed

section Finite

variable [LawfulNumber α] {commands : List (Command α)} {turn : Nat} {time : α}
  (finite : ∀ c ∈ commands, c.IsFinite)
include finite

theorem opens_of_placed {goal : Target α} {start length : α}
    (placed : commands[turn]? = some (.pan goal start length)) :
    start ≤ Window.close start length :=
  Window.start_le_close (finite _ (List.mem_of_getElem? placed)).start length

theorem panBegunAt_iff (comparable : time ≤ time) : panBegunAt commands turn time = true ↔
    ∃ goal start length, commands[turn]? = some (.pan goal start length) ∧ start ≤ time := by
  constructor
  · intro begun
    obtain ⟨goal, start, length, placed⟩ := exists_pan_of_begunAt begun
    have known := LawfulNumber.self_le_left (opens_of_placed finite placed)
    exact ⟨goal, start, length, placed, (panBegunAt_iff_le placed known comparable).mp begun⟩
  · rintro ⟨goal, start, length, placed, started⟩
    exact (panBegunAt_iff_le placed (LawfulNumber.self_le_left started) comparable).mpr started

theorem panPastAt_iff (comparable : time ≤ time) : panPastAt commands turn time = true ↔
    ∃ goal start length, commands[turn]? = some (.pan goal start length) ∧
      Window.close start length < time := by
  constructor
  · intro isPast
    obtain ⟨goal, start, length, placed⟩ :=
      exists_pan_of_begunAt (panBegunAt_of_panPastAt isPast)
    have opens := opens_of_placed finite placed
    exact ⟨goal, start, length, placed, (panPastAt_iff_lt placed opens comparable).mp isPast⟩
  · rintro ⟨goal, start, length, placed, closed⟩
    exact (panPastAt_iff_lt placed (opens_of_placed finite placed) comparable).mpr closed

end Finite

theorem panBegunAt_of_le [LawfulNumber α] {commands : List (Command α)} {turn : Nat}
    {time later : α} (le : time ≤ later) (begun : panBegunAt commands turn time = true) :
    panBegunAt commands turn later = true := by
  obtain ⟨goal, start, length, placed⟩ := exists_pan_of_begunAt begun
  rw [panBegunAt_of_placed placed] at begun ⊢
  exact Phase.begun_of_le le begun

theorem panPastAt_of_le [LawfulNumber α] {commands : List (Command α)} {turn : Nat}
    {time later : α} (le : time ≤ later) (isPast : panPastAt commands turn time = true) :
    panPastAt commands turn later = true := by
  obtain ⟨goal, start, length, placed⟩ := exists_pan_of_begunAt (panBegunAt_of_panPastAt isPast)
  rw [panPastAt_of_placed placed] at isPast ⊢
  exact Phase.past_of_le le isPast

omit [Number α] in
theorem getElem?_concat_of_lt {commands : List (Command α)} {turn : Nat}
    (outside : commands.length < turn) (command : Command α) :
    (commands ++ [command])[turn]? = none := by
  rw [List.getElem?_eq_none_iff, List.length_append, List.length_singleton]
  exact outside

theorem panPastAt_concat (commands : List (Command α)) (command : Command α) (turn : Nat)
    (time : α) : panPastAt (commands ++ [command]) turn time = true ↔
      panPastAt commands turn time = true ∨
        (command.panPast time = true ∧ turn = commands.length) := by
  unfold panPastAt
  rcases lt_trichotomy turn commands.length with inside | rfl | outside
  · simp [List.getElem?_append_left inside, inside.ne]
  · simp
  · have absent : (commands ++ [command])[turn]? = none := getElem?_concat_of_lt outside command
    simp [absent, outside.le, outside.ne']

theorem zoomStep_bookkeeping (settled : Settled α) (frame : Frame α) (level start duration : α)
    (center : Target α) (track : Track α) :
    (settled.zoomStep frame level start duration center track).2.origins = settled.origins ∧
      (settled.zoomStep frame level start duration center track).2.committed = settled.committed ∧
      (settled.zoomStep frame level start duration center track).2.center = settled.center := by
  unfold Settled.zoomStep
  split <;> exact ⟨rfl, rfl, rfl⟩

variable (turn : Nat) (command : Command α) (track : Track α) (reached : Frame α × Settled α)

/-- A pan notes where it sets out from when it is its turn and it has begun; nothing else is
noted. -/
theorem apply_origins (other : Nat) :
    (command.apply turn track reached).2.origins.find? other =
      if turn = other ∧ command.panBegun reached.1.time = true then
        some (reached.2.origin turn reached.1)
      else reached.2.origins.find? other := by
  obtain ⟨frame, settled⟩ := reached
  cases command with
  | follow => exact (if_neg (by simp [panBegun])).symm
  | hold => exact (if_neg (by simp [panBegun])).symm
  | zoom level start duration center =>
    refine Eq.trans ?_ (if_neg (by simp [panBegun])).symm
    exact congrArg (Table.find? other) (zoomStep_bookkeeping ..).1
  | pan goal start duration =>
    change (settled.panStep turn frame goal start duration track).2.origins.find? other = _
    unfold Settled.panStep
    split
    · next early => simp [panBegun, early, Phase.begun]
    · next progress inside => simp [panBegun, inside, Phase.begun, Settled.find?_noteOrigin]
    · next late =>
      dsimp only
      split <;> simp [panBegun, late, Phase.begun, Settled.find?_noteOrigin]

/-- A pan is added to the committed ones when it is its turn, its window is past, and it is not
among them yet. -/
theorem apply_committed :
    (command.apply turn track reached).2.committed =
      if command.panPast reached.1.time = true ∧ turn ∉ reached.2.committed then
        reached.2.committed ++ [turn]
      else reached.2.committed := by
  obtain ⟨frame, settled⟩ := reached
  cases command with
  | follow => exact (if_neg (by simp [panPast])).symm
  | hold => exact (if_neg (by simp [panPast])).symm
  | zoom level start duration center =>
    exact (zoomStep_bookkeeping ..).2.1.trans (if_neg (by simp [panPast])).symm
  | pan goal start duration =>
    change (settled.panStep turn frame goal start duration track).2.committed = _
    unfold Settled.panStep
    split
    · next early => simp [panPast, early, Phase.past]
    · next progress inside => simp [panPast, inside, Phase.past, Settled.noteOrigin_committed]
    · next late =>
      dsimp only
      by_cases done : turn ∈ settled.committed
      · simp [done, Settled.noteOrigin_committed]
      · simp [done, panPast, late, Phase.past, Settled.noteOrigin_committed]

/-- Where a pan lands when it is its turn: at its target, if its window is past and it is not
committed yet. -/
def landing? (track : Track α) (turn : Nat) (reached : Frame α × Settled α) :
    Command α → Option (Point α)
  | pan goal start duration =>
    if (Phase.of reached.1.time start duration).past = true ∧ turn ∉ reached.2.committed then
      some (goal.place track (Settled.endOf start duration) (reached.2.origin turn reached.1))
    else none
  | _ => none

theorem apply_settled_center :
    (command.apply turn track reached).2.center =
      (command.landing? track turn reached).getD reached.2.center := by
  obtain ⟨frame, settled⟩ := reached
  cases command with
  | follow => rfl
  | hold => rfl
  | zoom level start duration center => exact (zoomStep_bookkeeping ..).2.2
  | pan goal start duration =>
    change (settled.panStep turn frame goal start duration track).2.center = _
    unfold Settled.panStep
    split
    · next early => simp [landing?, early, Phase.past]
    · next progress inside => simp [landing?, inside, Phase.past, Settled.noteOrigin_center]
    · next late =>
      dsimp only
      by_cases done : turn ∈ settled.committed
      · simp [landing?, done, Settled.noteOrigin_center]
      · simp [landing?, done, late, Phase.past]

variable {turn command track reached}

theorem apply_frame_of_panPast (isPast : command.panPast reached.1.time = true) :
    (command.apply turn track reached).1 = reached.1 := by
  obtain ⟨frame, settled⟩ := reached
  cases command with
  | follow => cases isPast
  | zoom => cases isPast
  | hold => cases isPast
  | pan goal start duration =>
    change (settled.panStep turn frame goal start duration track).1 = _
    rw [Settled.panStep, Phase.eq_after_of_past isPast]
    dsimp only
    split <;> rfl

/-- A pan that is committed and has noted its origin does nothing more. -/
theorem apply_of_committed (isPast : command.panPast reached.1.time = true) {place : Point α}
    (noted : reached.2.origins.find? turn = some place) (committed : turn ∈ reached.2.committed) :
    command.apply turn track reached = reached := by
  obtain ⟨frame, settled⟩ := reached
  cases command with
  | follow => cases isPast
  | zoom => cases isPast
  | hold => cases isPast
  | pan goal start duration =>
    change settled.panStep turn frame goal start duration track = _
    rw [Settled.panStep, Phase.eq_after_of_past isPast]
    dsimp only
    rw [if_pos (by simpa using committed), Settled.noteOrigin_of_noted _ _ _ noted]

variable (commands : List (Command α)) (track : Track α) (frame : Frame α) (settled : Settled α)

theorem applyAll_origins (turn : Nat) :
    (applyAll commands track (frame, settled)).2.origins.find? turn =
      if panBegunAt commands turn frame.time = true then
        some (settled.origin turn (applyAll (commands.take turn) track (frame, settled)).1)
      else settled.origins.find? turn := by
  -- Only the last command can have the turn that is its place in the list.
  induction commands using List.reverseRecOn with
  | nil => rfl
  | append_singleton commands command ih =>
    rw [applyAll_concat, apply_origins, applyAll_time]
    rcases lt_trichotomy turn commands.length with inside | rfl | outside
    · have same : panBegunAt (commands ++ [command]) turn frame.time =
          panBegunAt commands turn frame.time := by
        rw [panBegunAt, List.getElem?_append_left inside]
        rfl
      rw [if_neg (fun both => inside.ne' both.1), ih, same,
        List.take_append_of_le_length inside.le]
    · have unnoted : (applyAll commands track (frame, settled)).2.origins.find? commands.length =
          settled.origins.find? commands.length := by
        rw [ih, if_neg (by simp [panBegunAt])]
      have own : panBegunAt (commands ++ [command]) commands.length frame.time =
          command.panBegun frame.time := by
        simp [panBegunAt]
      rw [own, List.take_left, unnoted]
      simp only [Settled.origin, unnoted, true_and]
    · rw [if_neg (fun both => outside.ne both.1), ih,
        if_neg (by simp [panBegunAt, outside.le]),
        if_neg (by simp [panBegunAt, getElem?_concat_of_lt outside])]

theorem mem_applyAll_committed (turn : Nat) :
    turn ∈ (applyAll commands track (frame, settled)).2.committed ↔
      turn ∈ settled.committed ∨ panPastAt commands turn frame.time = true := by
  induction commands using List.reverseRecOn with
  | nil => simp [applyAll, panPastAt]
  | append_singleton commands command ih =>
    have added : turn ∈ (applyAll (commands ++ [command]) track (frame, settled)).2.committed ↔
        turn ∈ (applyAll commands track (frame, settled)).2.committed ∨
          (command.panPast frame.time = true ∧ turn = commands.length) := by
      rw [applyAll_concat, apply_committed, applyAll_time]
      split
      · next adds => simp [adds.1]
      · next kept =>
        refine ⟨.inl, fun either => either.elim id fun own => ?_⟩
        by_contra fresh
        exact kept ⟨own.1, own.2 ▸ fresh⟩
    rw [added, ih, panPastAt_concat, or_assoc]

theorem landing?_eq_none {command : Command α} {turn : Nat} {reached : Frame α × Settled α}
    (committed : command.panPast reached.1.time = true → turn ∈ reached.2.committed) :
    command.landing? track turn reached = none := by
  cases command with
  | pan goal start duration => exact if_neg fun both => both.2 (committed both.1)
  | follow => rfl
  | zoom => rfl
  | hold => rfl

/-- The settled centre is moved by none of the commands from a turn on, if none of them is a pan
that is past and not committed yet. -/
theorem applyAll_settled_center {from_ : Nat}
    (quiet : ∀ turn, from_ ≤ turn → panPastAt commands turn frame.time = true →
      turn ∈ settled.committed) :
    (applyAll commands track (frame, settled)).2.center =
      (applyAll (commands.take from_) track (frame, settled)).2.center := by
  induction commands using List.reverseRecOn with
  | nil => rw [List.take_nil]
  | append_singleton commands command ih =>
    by_cases inside : from_ ≤ commands.length
    · have before : ∀ turn, from_ ≤ turn → panPastAt commands turn frame.time = true →
          turn ∈ settled.committed := fun turn le isPast =>
        quiet turn le ((panPastAt_concat ..).mpr (.inl isPast))
      have own : command.landing? track commands.length
          (applyAll commands track (frame, settled)) = none := by
        refine landing?_eq_none _ fun isPast => (mem_applyAll_committed ..).mpr (.inl ?_)
        rw [applyAll_time] at isPast
        exact quiet _ inside ((panPastAt_concat ..).mpr (.inr ⟨isPast, rfl⟩))
      rw [applyAll_concat, apply_settled_center, own, Option.getD_none, ih before,
        List.take_append_of_le_length inside]
    · rw [List.take_of_length_le (by simp; omega)]

theorem nodup_applyAll_committed (nodup : settled.committed.Nodup) :
    (applyAll commands track (frame, settled)).2.committed.Nodup := by
  induction commands using List.reverseRecOn with
  | nil => exact nodup
  | append_singleton commands command ih =>
    rw [applyAll_concat, apply_committed]
    split
    · next adds => exact ih.append (List.nodup_singleton _) (List.disjoint_singleton.mpr adds.2)
    · exact ih

end Command

namespace Timeline

/-- What is reached in a frame when it is the turn of a command, before that one is applied. -/
def reached (commands : List (Command α)) (track : Track α) (fps : Int) (initial : Settled α)
    (index turn : Nat) : Frame α × Settled α :=
  let settled := settledBefore commands track fps initial index
  Command.applyAll (commands.take turn) track (settled.frame (moment fps index), settled)

variable {commands : List (Command α)} {track : Track α} {fps : Int} {initial : Settled α}
  {index turn : Nat}

theorem reached_time :
    (reached commands track fps initial index turn).1.time = moment fps index :=
  Command.applyAll_time ..

theorem reached_succ {command : Command α} (placed : commands[turn]? = some command) :
    reached commands track fps initial index (turn + 1) =
      command.apply turn track (reached commands track fps initial index turn) := by
  have inside : turn < commands.length := (List.getElem?_eq_some_iff.mp placed).1
  unfold reached
  dsimp only
  rw [List.take_add_one, placed, Option.toList_some, Command.applyAll_concat,
    List.length_take_of_le inside.le]

theorem carry_bookkeeping (settled : Settled α) (start center : Point α) :
    (settled.carry start center).origins = settled.origins ∧
      (settled.carry start center).committed = settled.committed := by
  unfold Settled.carry
  split <;> exact ⟨rfl, rfl⟩

theorem find?_settledBefore_succ :
    (settledBefore commands track fps initial (index + 1)).origins.find? turn =
      if Command.panBegunAt commands turn (moment fps index : α) = true then
        some ((settledBefore commands track fps initial index).origin turn
          (reached commands track fps initial index turn).1)
      else (settledBefore commands track fps initial index).origins.find? turn := by
  rw [settledBefore_succ]
  refine (congrArg (Table.find? turn) (carry_bookkeeping ..).1).trans ?_
  exact Command.applyAll_origins ..

theorem mem_settledBefore_succ :
    turn ∈ (settledBefore commands track fps initial (index + 1)).committed ↔
      turn ∈ (settledBefore commands track fps initial index).committed ∨
        Command.panPastAt commands turn (moment fps index : α) = true := by
  rw [settledBefore_succ]
  refine (iff_of_eq (congrArg (turn ∈ ·) (carry_bookkeeping ..).2)).trans ?_
  exact Command.mem_applyAll_committed ..

theorem find?_of_unbegun (empty : initial.origins = [])
    (unbegun : ∀ earlier < index,
      ¬ Command.panBegunAt commands turn (moment fps earlier : α) = true) :
    (settledBefore commands track fps initial index).origins.find? turn = none := by
  induction index with
  | zero =>
    change initial.origins.find? turn = none
    rw [empty]
    rfl
  | succ index ih =>
    rw [find?_settledBefore_succ, if_neg (unbegun index index.lt_succ_self)]
    exact ih fun earlier before => unbegun earlier (before.trans index.lt_succ_self)

theorem find?_of_noted {place : Point α}
    (noted : (settledBefore commands track fps initial index).origins.find? turn = some place)
    {later : Nat} (le : index ≤ later) :
    (settledBefore commands track fps initial later).origins.find? turn = some place := by
  induction later, le using Nat.le_induction with
  | base => exact noted
  | succ later le ih =>
    rw [find?_settledBefore_succ, Settled.origin, ih, Option.getD_some, ite_self]

/-- The centre noted in the first frame that has reached a pan's start stays noted. -/
theorem find?_of_begun (empty : initial.origins = []) {first : Nat}
    (begins : IsLeast {k | Command.panBegunAt commands turn (moment fps k : α) = true} first)
    (later : first < index) :
    (settledBefore commands track fps initial index).origins.find? turn =
      some (reached commands track fps initial first turn).1.center := by
  have unnoted : (settledBefore commands track fps initial first).origins.find? turn = none :=
    find?_of_unbegun empty fun earlier before begun => (begins.2 begun).not_gt before
  have begun : Command.panBegunAt commands turn (moment fps first : α) = true := begins.1
  have noted : (settledBefore commands track fps initial (first + 1)).origins.find? turn = _ :=
    find?_settledBefore_succ
  rw [if_pos begun, Settled.origin, unnoted, Option.getD_none] at noted
  exact find?_of_noted noted later

theorem mem_committed_iff (empty : initial.committed = []) :
    turn ∈ (settledBefore commands track fps initial index).committed ↔
      ∃ earlier < index, Command.panPastAt commands turn (moment fps earlier : α) = true := by
  induction index with
  | zero =>
    change turn ∈ initial.committed ↔ _
    simp [empty]
  | succ index ih =>
    rw [mem_settledBefore_succ, ih]
    simp only [Nat.lt_succ_iff_lt_or_eq, or_and_right, exists_or, exists_eq_left]

theorem nodup_committed (empty : initial.committed = []) :
    (settledBefore commands track fps initial index).committed.Nodup := by
  refine settledBefore_induction (fun _ settled => settled.committed.Nodup) ?_ ?_ index
  · rw [empty]
    exact List.nodup_nil
  · intro index settled nodup
    refine Eq.subst (carry_bookkeeping ..).2.symm ?_
    exact Command.nodup_applyAll_committed _ _ _ _ nodup

theorem isSome_find?_iff (empty : initial.origins = []) :
    ((settledBefore commands track fps initial index).origins.find? turn).isSome = true ↔
      ∃ earlier < index, Command.panBegunAt commands turn (moment fps earlier : α) = true := by
  constructor
  · intro noted
    by_contra unbegun
    simp only [not_exists, not_and] at unbegun
    rw [find?_of_unbegun empty unbegun] at noted
    cases noted
  · rintro ⟨earlier, before, begun⟩
    have some_ : ∃ k, Command.panBegunAt commands turn (moment fps k : α) = true := ⟨earlier, begun⟩
    rw [find?_of_begun empty (Nat.isLeast_find some_) ((Nat.find_min' some_ begun).trans_lt before)]
    rfl

/-- Whether anything has happened by a frame is told by the frame itself, if it stays so. -/
theorem exists_lt_succ_iff [LawfulNumber α] (positive : 0 < fps)
    (range : isFinite (ofInt fps : α) = true) {happened : α → Prop}
    (stays : ∀ {time later : α}, time ≤ later → happened time → happened later) :
    (∃ earlier < index + 1, happened (moment fps earlier)) ↔ happened (moment fps index) := by
  refine ⟨?_, fun now => ⟨index, index.lt_succ_self, now⟩⟩
  rintro ⟨earlier, before, then_⟩
  exact stays (moment_le positive range (Nat.le_of_lt_succ before)) then_

theorem mem_reached_committed :
    turn ∈ (reached commands track fps initial index turn).2.committed ↔
      turn ∈ (settledBefore commands track fps initial index).committed := by
  refine (Command.mem_applyAll_committed ..).trans (or_iff_left ?_)
  simp [Command.panPastAt]

theorem find?_reached :
    (reached commands track fps initial index turn).2.origins.find? turn =
      (settledBefore commands track fps initial index).origins.find? turn :=
  (Command.applyAll_origins ..).trans (if_neg (by simp [Command.panBegunAt]))

/-- What becomes of a pan in the course of the frames up to one. -/
structure PanOnTime (commands : List (Command α)) (track : Track α) (fps : Int)
    (initial : Settled α) (turn : Nat) (goal : Target α) (start length : α) (index : Nat) :
    Prop where
  /-- It sets out from the centre that was reached at its turn in the first frame from its start
  on. -/
  origin : start ≤ moment fps index →
    ∃ first ≤ index, IsLeast {k | start ≤ (moment fps k : α)} first ∧
      (settledBefore commands track fps initial (index + 1)).origins.find? turn =
        some (reached commands track fps initial first turn).1.center
  /-- Until its window is past it leaves what is settled alone. -/
  waits : ¬ Window.close start length < moment fps index →
    (reached commands track fps initial index (turn + 1)).2.center =
        (reached commands track fps initial index turn).2.center ∧
      (reached commands track fps initial index (turn + 1)).2.committed =
        (reached commands track fps initial index turn).2.committed
  /-- In the first frame past its window its target becomes the settled centre. -/
  lands : IsLeast {k | Window.close start length < (moment fps k : α)} index →
    turn ∉ (reached commands track fps initial index turn).2.committed ∧
      (reached commands track fps initial index (turn + 1)).2.committed =
        (reached commands track fps initial index turn).2.committed ++ [turn] ∧
      (reached commands track fps initial index (turn + 1)).1 =
        (reached commands track fps initial index turn).1 ∧
      ∃ origin, (settledBefore commands track fps initial (index + 1)).origins.find? turn =
          some origin ∧
        (reached commands track fps initial index (turn + 1)).2.center =
          goal.place track (Settled.endOf start length) origin
  /-- After that it does nothing any more. -/
  rests : ∀ earlier < index, Window.close start length < moment fps earlier →
    reached commands track fps initial index (turn + 1) =
      reached commands track fps initial index turn

variable [LawfulNumber α]

theorem find?_of_started (positive : 0 < fps) (range : isFinite (ofInt fps : α) = true)
    (unnoted : initial.origins = []) {goal : Target α} {start length : α}
    (placed : commands[turn]? = some (.pan goal start length)) {first : Nat}
    (least : IsLeast {k | start ≤ (moment fps k : α)} first) (later : first < index) :
    (settledBefore commands track fps initial index).origins.find? turn =
      some (reached commands track fps initial first turn).1.center := by
  have known := LawfulNumber.self_le_left least.1
  have begun : ∀ k, Command.panBegunAt commands turn (moment fps k : α) = true ↔
      start ≤ moment fps k := fun k =>
    Command.panBegunAt_iff_le placed known (moment_le positive range (le_refl k))
  refine find?_of_begun unnoted ?_ later
  simpa only [begun] using least

theorem panOnTime (positive : 0 < fps) (range : isFinite (ofInt fps : α) = true)
    (unnoted : initial.origins = []) (uncommitted : initial.committed = []) {goal : Target α}
    {start length : α} (opens : start ≤ Window.close start length)
    (placed : commands[turn]? = some (.pan goal start length)) (index : Nat) :
    PanOnTime commands track fps initial turn goal start length index := by
  have comparable : ∀ k, (moment fps k : α) ≤ moment fps k :=
    fun k => moment_le positive range (le_refl k)
  have past : ∀ k, Command.panPastAt commands turn (moment fps k : α) = true ↔
      Window.close start length < moment fps k :=
    fun k => Command.panPastAt_iff_lt placed opens (comparable k)
  have pastNow : Window.close start length < moment fps index ↔
      (Command.pan goal start length).panPast
        (reached commands track fps initial index turn).1.time = true := by
    rw [reached_time, ← past, Command.panPastAt_of_placed placed]
    rfl
  -- When its turn comes it is not yet committed in the first frame past its window.
  have committed : turn ∈ (reached commands track fps initial index turn).2.committed ↔
      ∃ earlier < index, Window.close start length < moment fps earlier := by
    simp only [mem_reached_committed, mem_committed_iff uncommitted, past]
  have step : reached commands track fps initial index (turn + 1) =
      (Command.pan goal start length).apply turn track
        (reached commands track fps initial index turn) := reached_succ placed
  refine { origin := fun started => ?_, waits := fun waiting => ?_, lands := fun lands => ?_,
           rests := fun earlier before then_ => ?_ }
  · have some_ : ∃ k, start ≤ (moment fps k : α) := ⟨index, started⟩
    have least : IsLeast {k | start ≤ (moment fps k : α)} (Nat.find some_) :=
      Nat.isLeast_find some_
    have inTime : Nat.find some_ ≤ index := Nat.find_min' some_ started
    exact ⟨Nat.find some_, inTime, least,
      find?_of_started positive range unnoted placed least (Nat.lt_succ_of_le inTime)⟩
  · have notPast : ¬ (Command.pan goal start length).panPast
        (reached commands track fps initial index turn).1.time = true :=
      fun isPast => waiting (pastNow.mpr isPast)
    rw [step, Command.apply_committed, Command.apply_settled_center,
      Command.landing?_eq_none track (fun isPast => absurd isPast notPast),
      if_neg fun both => notPast both.1]
    exact ⟨rfl, rfl⟩
  · have isPast := pastNow.mp lands.1
    have fresh : turn ∉ (reached commands track fps initial index turn).2.committed := fun done =>
      (committed.mp done).elim fun earlier ⟨before, closed⟩ => (lands.2 closed).not_gt before
    have begunNow : Command.panBegunAt commands turn (moment fps index : α) = true :=
      Command.panBegunAt_of_panPastAt ((past index).mpr lands.1)
    have noted : (settledBefore commands track fps initial (index + 1)).origins.find? turn = _ :=
      find?_settledBefore_succ
    rw [if_pos begunNow] at noted
    refine ⟨fresh, ?_, ?_, _, noted, ?_⟩
    · rw [step, Command.apply_committed, if_pos ⟨isPast, fresh⟩]
    · rw [step, Command.apply_frame_of_panPast isPast]
    · have lands_ : (Command.pan goal start length).landing? track turn
          (reached commands track fps initial index turn) = some (goal.place track
            (Settled.endOf start length) ((reached commands track fps initial index turn).2.origin
              turn (reached commands track fps initial index turn).1)) :=
        if_pos ⟨isPast, fresh⟩
      rw [step, Command.apply_settled_center, lands_, Option.getD_some, Settled.origin,
        find?_reached, ← Settled.origin]
  · have closed : Window.close start length < moment fps index := lt_of_lt_of_le then_
      (moment_le positive range before.le)
    have noted : ((reached commands track fps initial index turn).2.origins.find?
        turn).isSome = true := by
      rw [find?_reached, isSome_find?_iff unnoted]
      exact ⟨earlier, before, Command.panBegunAt_of_panPastAt ((past earlier).mpr then_)⟩
    obtain ⟨place, noted⟩ := Option.isSome_iff_exists.mp noted
    rw [step, Command.apply_of_committed (pastNow.mp closed) noted
      (committed.mpr ⟨earlier, before, then_⟩)]

/-- The pans follow the clock. Each frame follows from the state before it; after it those pans
whose start it has reached have noted the centre they set out from, those whose window it has passed
are committed, each once, and what becomes of every single one is in `PanOnTime`. -/
theorem build_pans_follow_clock (commands : List (Command α)) (track : Track α) (duration : α)
    (fps : Int) (resolution : Int × Int) (finite : ∀ c ∈ commands, c.IsFinite)
    (positive : 0 < fps) :
    let ordered := Command.sortByStart commands
    let initial : Settled α := .initial resolution.1 resolution.2
    (isFinite (duration * ofInt fps) = true →
      ∃ frames, build commands track duration fps resolution = .ok frames) ∧
    ∀ frames, build commands track duration fps resolution = .ok frames →
      ∀ (index : Nat) (frame : Frame α), frames[index]? = some frame →
        let settled := settledBefore ordered track fps initial (index + 1)
        frame = frameAt ordered track fps initial index ∧ frame.time = moment fps index ∧
        (∀ turn, (settled.origins.find? turn).isSome = true ↔
          ∃ goal start length, ordered[turn]? = some (Command.pan goal start length) ∧
            start ≤ frame.time) ∧
        settled.committed.Nodup ∧
        (∀ turn, turn ∈ settled.committed ↔
          ∃ goal start length, ordered[turn]? = some (Command.pan goal start length) ∧
            Window.close start length < frame.time) ∧
        ∀ turn goal start length, ordered[turn]? = some (Command.pan goal start length) →
          PanOnTime ordered track fps initial turn goal start length index := by
  intro ordered initial
  refine ⟨fun range => ?_, fun frames built index frame found => ?_⟩
  · obtain ⟨count, counted⟩ := frameCount_of_isFinite range
    exact ⟨_, build_eq_ok_iff.mpr ⟨count, counted, rfl⟩⟩
  obtain ⟨counted, rfl⟩ := eq_frameAt_of_build built found
  have range := LawfulNumber.isFinite_of_mul counted
  have time : (frameAt ordered track fps initial index).time = moment fps index :=
    Command.applyAll_time ..
  have comparable : (moment fps index : α) ≤ moment fps index :=
    moment_le positive range (le_refl index)
  have orderedFinite : ∀ c ∈ ordered, c.IsFinite := fun c member =>
    finite c ((Order.sortOn_perm Command.start commands).subset member)
  refine ⟨rfl, time, fun turn => ?_, nodup_committed rfl, fun turn => ?_,
    fun turn goal start length placed => ?_⟩
  · rw [time, isSome_find?_iff rfl,
      exists_lt_succ_iff positive range fun le => Command.panBegunAt_of_le le,
      Command.panBegunAt_iff orderedFinite comparable]
  · rw [time, mem_committed_iff rfl,
      exists_lt_succ_iff positive range fun le => Command.panPastAt_of_le le,
      Command.panPastAt_iff orderedFinite comparable]
  · exact panOnTime positive range rfl rfl (Command.opens_of_placed orderedFinite placed) placed
      index

/-- A pan whose window lies between two frames and in the window of another. -/
theorem build_pans_follow_clock_between :
    let commands : List (Command Rat) :=
      [.pan (.point ⟨40, 30⟩) (1 / 2) (-1), .pan (.point ⟨0, 0⟩) 0 2]
    let ordered : List (Command Rat) :=
      [.pan (.point ⟨0, 0⟩) 0 2, .pan (.point ⟨40, 30⟩) (1 / 2) (-1)]
    ∃ frames, build commands [] 4 1 (200, 100) = .ok frames ∧
      ∀ (index : Nat) (frame : Frame Rat), frames[index]? = some frame →
        PanOnTime ordered [] 1 (.initial 200 100) 0 (.point ⟨0, 0⟩) 0 2 index ∧
        PanOnTime ordered [] 1 (.initial 200 100) 1 (.point ⟨40, 30⟩) (1 / 2) (-1) index := by
  intro commands ordered
  have sorted : Command.sortByStart commands =
      [.pan (.point ⟨0, 0⟩) 0 2, .pan (.point ⟨40, 30⟩) (1 / 2) (-1)] := by
    simp [commands, Command.sortByStart, Order.sortOn, Order.insertAll, Order.insertLater,
      Command.start]
  obtain ⟨exists_, follows⟩ := build_pans_follow_clock commands [] 4 1 (200, 100)
    (by simp [commands, Command.IsFinite, Target.IsFinite, isFinite, exact, Exact.ofRat,
      Exact.isFinite]) (by decide)
  rw [sorted] at follows
  obtain ⟨frames, built⟩ := exists_ rfl
  refine ⟨frames, built, fun index frame found => ?_⟩
  obtain ⟨_, _, _, _, _, onTime⟩ := follows frames built index frame found
  exact ⟨onTime 0 _ _ _ rfl, onTime 1 _ _ _ rfl⟩

end Timeline

end Screencast
