import Screencast.Proofs.Viewport.Pan

/-!
Which commands decide the centre of a frame, and what is carried on from it. Where none does the
frame shows the settled centre, and only the pans that land in it settle another.
-/

namespace Screencast

open Number

variable {α : Type}

def Phase.isOpen : Phase α → Bool
  | inside _ => true
  | before | after => false

variable [Number α]

theorem Number.same_self (x : α) : same x x = true := by
  unfold same
  cases x == x <;> rfl

def Point.same (place other : Point α) : Bool :=
  Number.same place.x other.x && Number.same place.y other.y

theorem Point.same_self (place : Point α) : place.same place = true := by
  rw [Point.same, Number.same_self, Number.same_self, Bool.and_self]

namespace Command

def setsCenter (time : α) : Command α → Bool
  | follow start stop _ => within time start stop
  | zoom _ start duration _ => (Phase.of time start duration).isOpen
  | pan _ start duration => (Phase.of time start duration).isOpen
  | hold start stop => within time start stop

theorem apply_center_of_not_sets {command : Command α} {reached : Frame α × Settled α}
    (idle : command.setsCenter reached.1.time = false) (turn : Nat) (track : Track α) :
    (command.apply turn track reached).1.center = reached.1.center := by
  obtain ⟨frame, settled⟩ := reached
  cases command with
  | follow start stop level =>
    change (frame.follow start stop level track).center = _
    rw [Frame.follow, show within frame.time start stop = false from idle]
    rfl
  | zoom level start duration center =>
    change (settled.zoomStep frame level start duration center track).1.center = _
    replace idle : (Phase.of frame.time start duration).isOpen = false := idle
    unfold Settled.zoomStep
    cases phase : Phase.of frame.time start duration with
    | before => rfl
    | inside progress => simp [phase, Phase.isOpen] at idle
    | after => rfl
  | pan goal start duration =>
    change (settled.panStep turn frame goal start duration track).1.center = _
    replace idle : (Phase.of frame.time start duration).isOpen = false := idle
    unfold Settled.panStep
    cases phase : Phase.of frame.time start duration with
    | before => rfl
    | inside progress => simp [phase, Phase.isOpen] at idle
    | after => dsimp only; split <;> rfl
  | hold start stop =>
    change (frame.hold start stop settled).center = _
    rw [Frame.hold, show within frame.time start stop = false from idle]
    rfl

theorem applyAll_append_center (commands : List (Command α)) {later : List (Command α)}
    {frame : Frame α} (idle : ∀ c ∈ later, c.setsCenter frame.time = false) (track : Track α)
    (settled : Settled α) :
    (applyAll (commands ++ later) track (frame, settled)).1.center =
      (applyAll commands track (frame, settled)).1.center := by
  induction later using List.reverseRecOn with
  | nil => rw [List.append_nil]
  | append_singleton later command ih =>
    have own : command.setsCenter
        (applyAll (commands ++ later) track (frame, settled)).1.time = false := by
      rw [applyAll_time]
      exact idle command (by simp)
    rw [← List.append_assoc, applyAll_concat, apply_center_of_not_sets own]
    exact ih fun c member => idle c (by simp [member])

end Command

theorem Settled.carry_center (settled : Settled α) (start reached : Point α) :
    (settled.carry start reached).center =
      if reached.same start then settled.center else reached := by
  change (if reached.same start then settled else { settled with center := reached }).center = _
  split <;> rfl

namespace Timeline

variable {commands : List (Command α)} {track : Track α} {fps : Int} {initial : Settled α}
  {index turn : Nat}

/-- The centre of a frame is carried on; if it is the one the frame started from, what the pans have
settled in it is. -/
theorem settledBefore_succ_center :
    (settledBefore commands track fps initial (index + 1)).center =
      if (frameAt commands track fps initial index).center.same
          (settledBefore commands track fps initial index).center then
        (reached commands track fps initial index commands.length).2.center
      else (frameAt commands track fps initial index).center := by
  rw [settledBefore_succ, reached, List.take_length]
  exact Settled.carry_center ..

theorem reached_center (idle : ∀ c ∈ commands.take turn,
      c.setsCenter (moment fps index : α) = false) :
    (reached commands track fps initial index turn).1.center =
      (settledBefore commands track fps initial index).center :=
  Command.applyAll_append_center [] idle track _

theorem frameAt_center_of_idle_drop (turn : Nat) (idle : ∀ c ∈ commands.drop turn,
      c.setsCenter (moment fps index : α) = false) :
    (frameAt commands track fps initial index).center =
      (reached commands track fps initial index turn).1.center := by
  have whole := @Command.applyAll_append_center _ _ (commands.take turn) _
    ((settledBefore commands track fps initial index).frame (moment fps index)) idle track
    (settledBefore commands track fps initial index)
  rw [List.take_append_drop] at whole
  exact whole

theorem frameAt_center (idle : ∀ c ∈ commands, c.setsCenter (moment fps index : α) = false) :
    (frameAt commands track fps initial index).center =
      (settledBefore commands track fps initial index).center :=
  frameAt_center_of_idle_drop 0 idle

theorem reached_settled_center (from_ : Nat) (uncommitted : initial.committed = [])
    (quiet : ∀ turn, from_ ≤ turn → Command.panPastAt commands turn (moment fps index : α) = true →
      ∃ earlier < index, Command.panPastAt commands turn (moment fps earlier : α) = true) :
    (reached commands track fps initial index commands.length).2.center =
      (reached commands track fps initial index from_).2.center := by
  unfold reached
  dsimp only
  rw [List.take_length]
  exact Command.applyAll_settled_center _ _ _ _ fun turn le isPast =>
    (mem_committed_iff uncommitted).mpr (quiet turn le isPast)

theorem settledBefore_succ_center_of_idle
    (idle : ∀ c ∈ commands, c.setsCenter (moment fps index : α) = false) :
    (settledBefore commands track fps initial (index + 1)).center =
      (reached commands track fps initial index commands.length).2.center := by
  rw [settledBefore_succ_center, frameAt_center idle, Point.same_self, if_pos rfl]

end Timeline

end Screencast
