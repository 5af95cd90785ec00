import Screencast.Proofs.Viewport.Center

/-!
What is left of a follow in the next frame. The centre it decided is carried on if the cursor has
left the place the frame started from, and also if no pan lands in that frame. A cursor that stands
still counts as none: a pan that lands under it takes the next frame over.
-/

namespace Screencast

open Number

variable {α : Type} [Number α]

theorem Target.place_of_tracked {track : Track α} (tracked : track ≠ []) (goal : Target α)
    (time : α) (fallback other : Point α) :
    goal.place track time fallback = goal.place track time other := by
  cases goal with
  | point place => rfl
  | mouse =>
    cases track with
    | nil => exact absurd rfl tracked
    | cons sample track => rfl

theorem Command.apply_center_of_follow {track : Track α} (tracked : track ≠ [])
    {reached : Frame α × Settled α} {start stop : α} (follows : within reached.1.time start stop)
    (level : FollowZoom α) (turn : Nat) :
    ((Command.follow start stop level).apply turn track reached).1.center =
      track.positionAt (reached.1.time * 1000) := by
  obtain ⟨frame, settled⟩ := reached
  change (frame.follow start stop level track).center = _
  rw [Frame.follow, if_pos follows]
  cases track with
  | nil => exact absurd rfl tracked
  | cons sample track => rfl

namespace Timeline

variable {commands : List (Command α)} {track : Track α} {fps : Int} {initial : Settled α}
  {index turn : Nat}

/-- The command with this turn is a pan, and this is the first frame past its window. -/
def LandsIn (commands : List (Command α)) (fps : Int) (turn index : Nat) : Prop :=
  IsLeast {k | Command.panPastAt commands turn (moment fps k : α) = true} index

theorem exists_earlier_of_not_landsIn (notNow : ¬ LandsIn commands fps turn index)
    (isPast : Command.panPastAt commands turn (moment fps index : α) = true) :
    ∃ earlier < index, Command.panPastAt commands turn (moment fps earlier : α) = true := by
  by_contra never
  refine notNow ⟨isPast, fun earlier pastToo => ?_⟩
  by_contra before
  exact never ⟨earlier, not_le.mp before, pastToo⟩

/-- The last follow of a frame decides its centre if no command after it does. -/
theorem frameAt_center_of_follow (tracked : track ≠ []) {before after : List (Command α)}
    {start stop : α} {level : FollowZoom α}
    (isLast : commands = before ++ .follow start stop level :: after)
    (follows : within (moment fps index) start stop)
    (idle : ∀ c ∈ after, c.setsCenter (moment fps index : α) = false) :
    (frameAt commands track fps initial index).center =
      track.positionAt (moment fps index * 1000) := by
  have placed : commands[before.length]? = some (.follow start stop level) := by
    rw [isLast, List.getElem?_append_right le_rfl, Nat.sub_self]
    rfl
  have rest : commands.drop (before.length + 1) = after := by
    rw [isLast, List.drop_append, List.drop_eq_nil_of_le before.length.le_succ,
      Nat.add_sub_cancel_left]
    rfl
  have time : (reached commands track fps initial index before.length).1.time = moment fps index :=
    reached_time
  rw [frameAt_center_of_idle_drop _ (rest ▸ idle), reached_succ placed,
    Command.apply_center_of_follow tracked (time ▸ follows), time]

theorem reached_settled_center_of_not_landsIn (uncommitted : initial.committed = [])
    (noneLands : ∀ turn, ¬ LandsIn commands fps turn index) :
    (reached commands track fps initial index commands.length).2.center =
      (settledBefore commands track fps initial index).center :=
  reached_settled_center 0 uncommitted fun turn _ isPast =>
    exists_earlier_of_not_landsIn (noneLands turn) isPast

/-- Of the pans that land in a frame the last one settles the centre. -/
theorem reached_settled_center_of_landsIn (tracked : track ≠ [])
    (uncommitted : initial.committed = []) {goal : Target α} {start length : α}
    (placed : commands[turn]? = some (.pan goal start length))
    (lands : LandsIn commands fps turn index)
    (isLast : ∀ later, turn < later → ¬ LandsIn commands fps later index) (fallback : Point α) :
    (reached commands track fps initial index commands.length).2.center =
      goal.place track (Settled.endOf start length) fallback := by
  have isPast : (Phase.of (moment fps index) start length).past = true :=
    (Command.panPastAt_of_placed placed _).symm.trans lands.1
  have fresh : turn ∉ (reached commands track fps initial index turn).2.committed := by
    rw [mem_reached_committed, mem_committed_iff uncommitted]
    rintro ⟨earlier, before, pastToo⟩
    exact (lands.2 pastToo).not_gt before
  have quiet : (reached commands track fps initial index commands.length).2.center =
      (reached commands track fps initial index (turn + 1)).2.center :=
    reached_settled_center (turn + 1) uncommitted fun later le isPast =>
      exists_earlier_of_not_landsIn (isLast later le) isPast
  rw [quiet, reached_succ placed, Command.apply_settled_center, Command.landing?, reached_time,
    if_pos ⟨isPast, fresh⟩, Option.getD_some]
  exact Target.place_of_tracked tracked ..

/-- The centre that a follow decided in one frame is that of the next one, in which no command
decides it, if the cursor has left the place the first frame started from or no pan lands in it.
Otherwise the last pan that lands there takes over. -/
theorem build_follow_carried (commands : List (Command α)) (track : Track α) (duration : α)
    (fps : Int) (resolution : Int × Int) (tracked : track ≠ []) {frames : List (Frame α)}
    (built : build commands track duration fps resolution = .ok frames) {index : Nat}
    {frame next : Frame α} (found : frames[index]? = some frame)
    (foundNext : frames[index + 1]? = some next) {before after : List (Command α)} {start stop : α}
    {level : FollowZoom α}
    (isLast : Command.sortByStart commands = before ++ .follow start stop level :: after)
    (follows : within frame.time start stop) (idle : ∀ c ∈ after, c.setsCenter frame.time = false)
    (idleNext : ∀ c ∈ commands, c.setsCenter next.time = false) :
    let ordered := Command.sortByStart commands
    let initial : Settled α := .initial resolution.1 resolution.2
    let settled := settledBefore ordered track fps initial index
    frame.center = track.positionAt (frame.time * 1000) ∧
      (frame.center.same settled.center = false → next.center = frame.center) ∧
      ((∀ turn, ¬ LandsIn ordered fps turn index) → frame.center.same next.center = true) ∧
      (frame.center.same settled.center = true →
        ∀ turn goal start length, ordered[turn]? = some (.pan goal start length) →
          LandsIn ordered fps turn index →
          (∀ later, turn < later → ¬ LandsIn ordered fps later index) →
          ∀ fallback, next.center = goal.place track (Settled.endOf start length) fallback) := by
  intro ordered initial settled
  obtain ⟨_, rfl⟩ := eq_frameAt_of_build built found
  obtain ⟨_, rfl⟩ := eq_frameAt_of_build built foundNext
  have time : ∀ k, (frameAt ordered track fps initial k).time = moment fps k :=
    fun _ => Command.applyAll_time ..
  rw [time] at follows idle idleNext
  -- Whether the follow counts hangs on whether it moved the centre, not on its window.
  have carried : (frameAt ordered track fps initial (index + 1)).center =
      if (frameAt ordered track fps initial index).center.same settled.center then
        (reached ordered track fps initial index ordered.length).2.center
      else (frameAt ordered track fps initial index).center :=
    (frameAt_center fun c member => idleNext c
      ((Order.sortOn_perm Command.start commands).subset member)).trans settledBefore_succ_center
  refine ⟨?_, fun moved => ?_, fun noneLands => ?_, fun still turn goal start length placed lands
    isLast fallback => ?_⟩
  · rw [time]
    exact frameAt_center_of_follow tracked isLast follows idle
  · rw [carried, if_neg (Bool.eq_false_iff.mp moved)]
  · rw [carried]
    split
    · next still =>
      rwa [reached_settled_center_of_not_landsIn rfl noneLands]
    · exact Point.same_self _
  · rw [carried, if_pos still]
    exact reached_settled_center_of_landsIn tracked rfl placed lands isLast fallback

/-- A pan lands in the last frame of a follow, under a cursor that is on its way. -/
theorem build_follow_carried_moving :
    let commands : List (Command Rat) :=
      [.follow 0 1 .unset, .pan (.point ⟨0, 0⟩) (1 / 4) (1 / 2)]
    let track : Track Rat := [⟨0, 40, 30⟩, ⟨2000, 80, 60⟩]
    ∃ frames frame next, build commands track 3 1 (200, 100) = .ok frames ∧
      frames[1]? = some frame ∧ frames[2]? = some next ∧ next.center = frame.center := by
  intro commands track
  have built : build commands track 3 1 (200, 100) = .ok ((List.range 3).map
      (frameAt (Command.sortByStart commands) track 1 (.initial 200 100))) :=
    build_eq_ok_iff.mpr ⟨3, by decide +kernel, rfl⟩
  have sorted : Command.sortByStart commands =
      [] ++ .follow 0 1 .unset :: [.pan (.point ⟨0, 0⟩) (1 / 4) (1 / 2)] := by
    simp [commands, Command.sortByStart, Order.sortOn, Order.insertAll, Order.insertLater,
      Command.start]
  have found : ((List.range 3).map
      (frameAt (Command.sortByStart commands) track 1 (.initial 200 100)))[1]? = some _ := rfl
  obtain ⟨_, moved, _⟩ := build_follow_carried commands track 3 1 (200, 100) (by simp [track])
    built found rfl sorted (by decide +kernel) (by decide +kernel) (by decide +kernel)
  exact ⟨_, _, _, built, rfl, rfl, moved (by decide +kernel)⟩

/-- Under a cursor that stands still the pan takes the next frame over. -/
theorem follow_taken_over :
    let commands : List (Command Rat) :=
      [.follow 0 1 .unset, .pan (.point ⟨0, 0⟩) (1 / 4) (1 / 2)]
    (build commands [⟨0, 40, 30⟩] 3 1 (200, 100)).map (·.map Frame.center) =
        .ok [⟨40, 30⟩, ⟨40, 30⟩, ⟨0, 0⟩] ∧
      commands.map (Command.setsCenter 1) = [true, false] ∧
      commands.map (Command.setsCenter 2) = [false, false] := by
  decide +kernel

end Timeline

end Screencast
