import Screencast.Proofs.Viewport.Center

/-!
A hold shows the settled zoom and centre, whatever the commands before it have done to the frame. As
long as no zoom and no pan comes to its end both stay as they are from frame to frame, and so does
the picture.
-/

namespace Screencast

open Number

variable {α : Type}

theorem lastSet_lastSet {β γ : Type} (set? : β → Option γ) (default : γ) (xs : List β) :
    lastSet set? (lastSet set? default xs) xs = lastSet set? default xs := by
  unfold lastSet
  cases (xs.filterMap set?).getLast? <;> rfl

theorem lastSet_congr {β γ : Type} {set? other? : β → Option γ} {xs : List β}
    (same : ∀ x ∈ xs, set? x = other? x) (default : γ) :
    lastSet set? default xs = lastSet other? default xs := by
  unfold lastSet
  rw [List.filterMap_congr same]

variable [Number α]

namespace Command

def isPast (time : α) : Command α → Bool
  | zoom _ start duration _ => (Phase.of time start duration).past
  | pan _ start duration => (Phase.of time start duration).past
  | follow .. | hold .. => false

/-- The level at which a zoom comes to its end, if its window is past. -/
def endLevel? (time : α) : Command α → Option α
  | zoom level start duration _ =>
    if (Phase.of time start duration).past = true then some level else none
  | follow .. | pan .. | hold .. => none

theorem isPast_of_panPast {time : α} {command : Command α} (past : command.panPast time = true) :
    command.isPast time = true := by
  cases command with
  | pan goal start duration => exact past
  | follow => cases past
  | zoom => cases past
  | hold => cases past

theorem panPast_eq {time other : α} {command : Command α}
    (same : command.isPast time = command.isPast other) :
    command.panPast time = command.panPast other := by
  cases command with
  | pan goal start duration => exact same
  | follow => rfl
  | zoom => rfl
  | hold => rfl

theorem endLevel?_eq {time other : α} {command : Command α}
    (same : command.isPast time = command.isPast other) :
    command.endLevel? time = command.endLevel? other := by
  cases command with
  | zoom level start duration center =>
    change (if (isPast time (.zoom level start duration center)) = true then _ else _) = _
    rw [same]
    rfl
  | follow => rfl
  | pan => rfl
  | hold => rfl

theorem endLevel?_eq_none {time : α} {command : Command α} (notPast : command.isPast time = false) :
    command.endLevel? time = none := by
  cases command with
  | zoom level start duration center => exact if_neg (Bool.eq_false_iff.mp notPast)
  | follow => rfl
  | pan => rfl
  | hold => rfl

variable {command : Command α} {reached : Frame α × Settled α}

theorem apply_settled_zoom (turn : Nat) (track : Track α) :
    (command.apply turn track reached).2.zoom =
      (command.endLevel? reached.1.time).getD reached.2.zoom := by
  obtain ⟨frame, settled⟩ := reached
  cases command with
  | follow => rfl
  | hold => rfl
  | pan goal start duration => exact (panStep_zoom ..).2
  | zoom level start duration center =>
    change (settled.zoomStep frame level start duration center track).2.zoom =
      (if (Phase.of frame.time start duration).past = true then some level else none).getD _
    unfold Settled.zoomStep
    cases Phase.of frame.time start duration <;> rfl

/-- A command that does not decide the centre may still show the level at which it came to its
end. -/
theorem apply_zoom_of_not_sets (idle : command.setsCenter reached.1.time = false) (turn : Nat)
    (track : Track α) :
    (command.apply turn track reached).1.zoom =
      ((command.endLevel? reached.1.time).map .level).getD reached.1.zoom := by
  obtain ⟨frame, settled⟩ := reached
  cases command with
  | follow start stop level =>
    change (frame.follow start stop level track).zoom = _
    rw [Frame.follow, show within frame.time start stop = false from idle]
    rfl
  | zoom level start duration center =>
    change (settled.zoomStep frame level start duration center track).1.zoom =
      ((if (Phase.of frame.time start duration).past = true then some level else none).map
        .level).getD _
    replace idle : (Phase.of frame.time start duration).isOpen = false := idle
    unfold Settled.zoomStep
    cases phase : Phase.of frame.time start duration with
    | before => rfl
    | inside progress => simp [phase, Phase.isOpen] at idle
    | after => rfl
  | pan goal start duration => exact (panStep_zoom ..).1
  | hold start stop =>
    change (frame.hold start stop settled).zoom = _
    rw [Frame.hold, show within frame.time start stop = false from idle]
    rfl

theorem applyAll_settled_zoom (commands : List (Command α)) (track : Track α) (frame : Frame α)
    (settled : Settled α) :
    (applyAll commands track (frame, settled)).2.zoom =
      lastSet (endLevel? frame.time) settled.zoom commands := by
  induction commands using List.reverseRecOn with
  | nil => rfl
  | append_singleton commands command ih =>
    rw [applyAll_concat, apply_settled_zoom, applyAll_time, ih, lastSet_concat]

theorem applyAll_append_zoom (commands : List (Command α)) {later : List (Command α)}
    {frame : Frame α} (idle : ∀ c ∈ later, c.setsCenter frame.time = false) (track : Track α)
    (settled : Settled α) :
    (applyAll (commands ++ later) track (frame, settled)).1.zoom =
      lastSet (fun c => (c.endLevel? frame.time).map .level)
        (applyAll commands track (frame, settled)).1.zoom later := by
  induction later using List.reverseRecOn with
  | nil => rw [List.append_nil]; rfl
  | append_singleton later command ih =>
    have own : command.setsCenter
        (applyAll (commands ++ later) track (frame, settled)).1.time = false := by
      rw [applyAll_time]
      exact idle command (by simp)
    rw [← List.append_assoc, applyAll_concat, apply_zoom_of_not_sets own, applyAll_time,
      ih fun c member => idle c (by simp [member]), lastSet_concat]

/-- What is shown if a hold is open and no command after it decides the centre: the centre settled
when it was the turn of the hold, and the zoom settled then, unless a later zoom is past. -/
theorem applyAll_of_hold (before : List (Command α)) (track : Track α) (frame : Frame α)
    (settled : Settled α) {after : List (Command α)} {start stop : α}
    (holds : within frame.time start stop = true)
    (idle : ∀ c ∈ after, c.setsCenter frame.time = false) :
    let held := (applyAll before track (frame, settled)).2
    let shown := (applyAll (before ++ .hold start stop :: after) track (frame, settled)).1
    shown.center = held.center ∧
      shown.zoom =
        lastSet (fun c => (c.endLevel? frame.time).map .level) (.level held.zoom) after := by
  intro held shown
  have opened : within (applyAll before track (frame, settled)).1.time start stop = true := by
    rwa [applyAll_time]
  have atHold : (applyAll (before ++ [.hold start stop]) track (frame, settled)).1 =
      ⟨(applyAll before track (frame, settled)).1.time, .level held.zoom, held.center⟩ := by
    rw [applyAll_concat]
    exact if_pos opened
  have split : before ++ .hold start stop :: after = (before ++ [.hold start stop]) ++ after := by
    rw [List.append_assoc, List.singleton_append]
  constructor
  · rw [show shown.center = _ from congrArg (fun cs => (applyAll cs track _).1.center) split,
      applyAll_append_center _ idle, atHold]
  · rw [show shown.zoom = _ from congrArg (fun cs => (applyAll cs track _).1.zoom) split,
      applyAll_append_zoom _ idle, atHold]

end Command

namespace Timeline

variable {commands : List (Command α)} {track : Track α} {fps : Int} {initial : Settled α}
  {index : Nat}

/-- Whether no zoom and no pan comes to its end in a frame: those whose windows are past in it were
past in the frame before. Before the first frame none is. -/
def NoneEnds (commands : List (Command α)) (fps : Int) : Nat → Prop
  | 0 => ∀ c ∈ commands, c.isPast (moment fps 0 : α) = false
  | index + 1 =>
    ∀ c ∈ commands, c.isPast (moment fps (index + 1) : α) = c.isPast (moment fps index)

theorem NoneEnds.exists_earlier (noneEnds : NoneEnds commands fps index) {turn : Nat}
    (past : Command.panPastAt commands turn (moment fps index : α) = true) :
    ∃ earlier < index, Command.panPastAt commands turn (moment fps earlier : α) = true := by
  unfold Command.panPastAt at past ⊢
  cases placed : commands[turn]? with
  | none => simp [placed] at past
  | some command =>
    rw [placed] at past
    replace past : command.panPast (moment fps index) = true := past
    have member : command ∈ commands := List.mem_of_getElem? placed
    cases index with
    | zero =>
      have isPast := Command.isPast_of_panPast past
      rw [noneEnds command member] at isPast
      cases isPast
    | succ index =>
      exact ⟨index, index.lt_succ_self,
        (Command.panPast_eq (noneEnds command member)).symm.trans past⟩

theorem NoneEnds.reached_center (noneEnds : NoneEnds commands fps index)
    (uncommitted : initial.committed = []) (turn : Nat) :
    (reached commands track fps initial index turn).2.center =
      (settledBefore commands track fps initial index).center := by
  have whole : (reached commands track fps initial index commands.length).2.center =
      (reached commands track fps initial index 0).2.center :=
    reached_settled_center 0 uncommitted fun turn _ past => noneEnds.exists_earlier past
  have rest : (reached commands track fps initial index commands.length).2.center =
      (reached commands track fps initial index turn).2.center :=
    reached_settled_center turn uncommitted fun turn _ past => noneEnds.exists_earlier past
  exact rest.symm.trans whole

theorem NoneEnds.settled_zoom (noneEnds : NoneEnds commands fps index) :
    (settledBefore commands track fps initial (index + 1)).zoom =
      (settledBefore commands track fps initial index).zoom := by
  have next : ∀ k, (settledBefore commands track fps initial (k + 1)).zoom =
      lastSet (Command.endLevel? (moment fps k))
        (settledBefore commands track fps initial k).zoom commands := by
    intro k
    rw [settledBefore_succ]
    exact (carry_zoom ..).trans (Command.applyAll_settled_zoom ..)
  cases index with
  | zero =>
    rw [next]
    exact lastSet_eq_default (fun c member => Command.endLevel?_eq_none (noneEnds c member)) _
  | succ index =>
    have same : lastSet (Command.endLevel? (moment fps (index + 1)))
        (settledBefore commands track fps initial (index + 1)).zoom commands =
        lastSet (Command.endLevel? (moment fps index))
          (settledBefore commands track fps initial (index + 1)).zoom commands :=
      lastSet_congr (fun c member => Command.endLevel?_eq (noneEnds c member)) _
    rw [next (index + 1), same, next index, lastSet_lastSet]

theorem NoneEnds.perm {other : List (Command α)} (noneEnds : NoneEnds commands fps index)
    (perm : other.Perm commands) : NoneEnds other fps index := by
  cases index with
  | zero => exact fun c member => noneEnds c (perm.subset member)
  | succ index => exact fun c member => noneEnds c (perm.subset member)

section Hold

variable {before after : List (Command α)} {start stop : α}
  (placed : commands = before ++ .hold start stop :: after)
  (holds : within (moment fps index) start stop = true)
  (idle : ∀ c ∈ after, c.setsCenter (moment fps index : α) = false)
include placed holds idle

/-- A hold shows the zoom that is settled, and those that have come to their end since: the zooms
before it, then the ones after it. -/
theorem frameAt_zoom_of_hold :
    (frameAt commands track fps initial index).zoom =
      lastSet (fun c => (c.endLevel? (moment fps index)).map .level)
        (.level (lastSet (Command.endLevel? (moment fps index))
          (settledBefore commands track fps initial index).zoom before)) after := by
  let settled := settledBefore commands track fps initial index
  have shown := (Command.applyAll_of_hold before track (settled.frame (moment fps index)) settled
    holds idle).2
  rw [Command.applyAll_settled_zoom, ← placed] at shown
  exact shown

theorem frameAt_center_of_hold (uncommitted : initial.committed = [])
    (noneEnds : NoneEnds commands fps index) :
    (frameAt commands track fps initial index).center =
      (settledBefore commands track fps initial index).center := by
  let settled := settledBefore commands track fps initial index
  have shown := (Command.applyAll_of_hold before track (settled.frame (moment fps index)) settled
    holds idle).1
  have held : (reached commands track fps initial index before.length).2.center = _ :=
    noneEnds.reached_center uncommitted before.length
  rw [reached, show commands.take before.length = before by rw [placed, List.take_left]] at held
  rw [← placed] at shown
  exact shown.trans held

theorem settledBefore_succ_center_of_hold (uncommitted : initial.committed = [])
    (noneEnds : NoneEnds commands fps index) :
    (settledBefore commands track fps initial (index + 1)).center =
      (settledBefore commands track fps initial index).center := by
  rw [settledBefore_succ_center]
  split
  · exact noneEnds.reached_center uncommitted commands.length
  · exact frameAt_center_of_hold placed holds idle uncommitted noneEnds

end Hold

/-- In two frames after one another in which no zoom and no pan comes to its end a hold that is open
in both shows the same, if no command after it decides the centre in either. -/
theorem build_hold_freezes (commands : List (Command α)) (track : Track α) (duration : α)
    (fps : Int) (resolution : Int × Int) {frames : List (Frame α)}
    (built : build commands track duration fps resolution = .ok frames) {index : Nat}
    {frame next : Frame α} (found : frames[index]? = some frame)
    (foundNext : frames[index + 1]? = some next) {before after : List (Command α)}
    {start stop : α} (placed : Command.sortByStart commands = before ++ .hold start stop :: after)
    (holds : within frame.time start stop = true) (holdsNext : within next.time start stop = true)
    (idle : ∀ c ∈ after, c.setsCenter frame.time = false)
    (idleNext : ∀ c ∈ after, c.setsCenter next.time = false)
    (noneEnds : NoneEnds commands fps index) (noneEndsNext : NoneEnds commands fps (index + 1)) :
    next.zoom = frame.zoom ∧ next.center = frame.center := by
  obtain ⟨_, rfl⟩ := eq_frameAt_of_build built found
  obtain ⟨_, rfl⟩ := eq_frameAt_of_build built foundNext
  let initial : Settled α := .initial resolution.1 resolution.2
  have time : ∀ k, (frameAt (Command.sortByStart commands) track fps initial k).time =
      moment fps k := fun _ => Command.applyAll_time ..
  rw [time] at holds holdsNext idle idleNext
  have sorted : (Command.sortByStart commands).Perm commands :=
    Order.sortOn_perm Command.start commands
  have quiet := noneEnds.perm sorted
  have quietNext := noneEndsNext.perm sorted
  -- No window ends between the two frames, so that the same have ended in both.
  have sameEnds : ∀ c ∈ Command.sortByStart commands,
      c.endLevel? (moment fps (index + 1)) = c.endLevel? (moment fps index) :=
    fun c member => Command.endLevel?_eq (quietNext c member)
  have sameBefore : ∀ c ∈ before,
      c.endLevel? (moment fps (index + 1)) = c.endLevel? (moment fps index) :=
    fun c member => sameEnds c (by simp [placed, member])
  have sameAfter : ∀ c ∈ after,
      (c.endLevel? (moment fps (index + 1))).map (.level : α → Zoom α) =
        (c.endLevel? (moment fps index)).map .level :=
    fun c member => congrArg _ (sameEnds c (by simp [placed, member]))
  constructor
  · rw [frameAt_zoom_of_hold placed holds idle, frameAt_zoom_of_hold placed holdsNext idleNext,
      quiet.settled_zoom, lastSet_congr sameBefore, lastSet_congr sameAfter]
  · rw [frameAt_center_of_hold placed holds idle rfl quiet,
      frameAt_center_of_hold placed holdsNext idleNext rfl quietNext,
      settledBefore_succ_center_of_hold placed holds idle rfl quiet]

/-- The cursor moves under an open follow and an unfinished zoom; the hold shows what the zoom and
the pan before them left. -/
theorem build_hold_freezes_moving :
    let commands : List (Command Rat) :=
      [.zoom 2 0 (1 / 2) .mouse, .pan (.point ⟨10, 20⟩) 0 (1 / 2), .follow 0 5 (.level 3),
        .zoom 4 (1 / 2) 9 .mouse, .hold 1 4]
    let track : Track Rat := [⟨0, 40, 30⟩, ⟨5000, 90, 60⟩]
    ∃ frames frame next, build commands track 5 2 (200, 100) = .ok frames ∧
      frames[3]? = some frame ∧ frames[4]? = some next ∧
      next.zoom = frame.zoom ∧ next.center = frame.center := by
  intro commands track
  have built : build commands track 5 2 (200, 100) = .ok ((List.range 10).map
      (frameAt (Command.sortByStart commands) track 2 (.initial 200 100))) :=
    build_eq_ok_iff.mpr ⟨10, by decide +kernel, rfl⟩
  have sorted : Command.sortByStart commands =
      [.zoom 2 0 (1 / 2) .mouse, .pan (.point ⟨10, 20⟩) 0 (1 / 2), .follow 0 5 (.level 3),
        .zoom 4 (1 / 2) 9 .mouse] ++ .hold 1 4 :: [] :=
    Order.sortOn_of_ordered (by decide +kernel) (by decide +kernel)
  have found : ((List.range 10).map
      (frameAt (Command.sortByStart commands) track 2 (.initial 200 100)))[3]? = some _ := rfl
  exact ⟨_, _, _, built, rfl, rfl, build_hold_freezes commands track 5 2 (200, 100) built found
    rfl sorted (by decide +kernel) (by decide +kernel) (by decide +kernel) (by decide +kernel)
    (by unfold NoneEnds; decide +kernel) (by unfold NoneEnds; decide +kernel)⟩

end Timeline

end Screencast
