import Mathlib.Data.List.Induction
import Screencast.Proofs.Order
import Screencast.Proofs.Viewport.Run
import Screencast.Proofs.Viewport.Window

/-!
The zoom of a frame, told from the commands and the moment alone. Whatever zoom the frames before
it left settled is seen only through `Zoom.base`, which the clock decides.
-/

namespace Screencast

open Number

variable {α : Type} [Number α]

/-- What the last of the `xs` that sets something sets; else the default. -/
def lastSet {β γ : Type} (set? : β → Option γ) (default : γ) (xs : List β) : γ :=
  (xs.filterMap set?).getLast?.getD default

theorem lastSet_concat {β γ : Type} (set? : β → Option γ) (default : γ) (xs : List β) (x : β) :
    lastSet set? default (xs ++ [x]) = (set? x).getD (lastSet set? default xs) := by
  unfold lastSet
  rw [List.filterMap_append]
  cases written : set? x with
  | none => simp [written]
  | some value => simp [written]

theorem lastSet_eq_of_mem {β γ : Type} {set? : β → Option γ} {xs : List β} {x : β}
    (member : x ∈ xs) (sets : (set? x).isSome) (default other : γ) :
    lastSet set? default xs = lastSet set? other xs := by
  obtain ⟨value, written⟩ := Option.isSome_iff_exists.mp sets
  have some_mem : value ∈ xs.filterMap set? := List.mem_filterMap.mpr ⟨x, member, written⟩
  unfold lastSet
  rw [List.getLast?_eq_some_getLast (List.ne_nil_of_mem some_mem)]
  rfl

theorem lastSet_eq_default {β γ : Type} {set? : β → Option γ} {xs : List β}
    (unset : ∀ x ∈ xs, set? x = none) (default : γ) : lastSet set? default xs = default := by
  have empty : xs.filterMap set? = [] := List.filterMap_eq_nil_iff.mpr unset
  unfold lastSet
  rw [empty]
  rfl

/-- A follow's zoom that is a number is a finite one. -/
def FollowZoom.IsFinite : FollowZoom α → Prop
  | level value => isFinite value = true
  | _ => True

def Target.IsFinite : Target α → Prop
  | mouse => True
  | point place => isFinite place.x = true ∧ isFinite place.y = true

def Command.IsFinite : Command α → Prop
  | follow start stop level => isFinite start = true ∧ isFinite stop = true ∧ level.IsFinite
  | zoom level start duration center =>
    isFinite level = true ∧ isFinite start = true ∧ isFinite duration = true ∧ center.IsFinite
  | pan goal start duration => goal.IsFinite ∧ isFinite start = true ∧ isFinite duration = true
  | hold start stop => isFinite start = true ∧ isFinite stop = true

theorem Command.IsFinite.start {command : Command α} (finite : command.IsFinite) :
    isFinite command.start = true := by
  cases command with
  | follow => exact finite.1
  | zoom => exact finite.2.1
  | pan => exact finite.2.1
  | hold => exact finite.1

namespace Zoom

def ended? (time : α) : Command α → Option α
  | .zoom reached start duration _ =>
    if Window.close start duration < time then some reached else none
  | _ => none

/-- The level of the last zoom whose window has ended. -/
def base (commands : List (Command α)) (time : α) : α :=
  lastSet (ended? time) 1 commands

/-- What a command makes of the zoom at a moment, where the zoom is `base` at rest. -/
def written? (base time : α) : Command α → Option (Zoom α)
  | .follow start stop zoom => if within time start stop then zoom.set? else none
  | .zoom reached start duration _ =>
    if Window.close start duration < time then some (.level reached)
    else if start ≤ time ∧ time ≤ Window.close start duration then
      some (.level (Ease.interpolate base reached (Window.progress time start duration)))
    else none
  | .pan .. => none
  | .hold start stop => if within time start stop then some (.level base) else none

/-- The zoom at a moment: what the last command that writes it makes of it. -/
def decided (commands : List (Command α)) (time : α) : Zoom α :=
  lastSet (written? (base commands time) time) (.level 1) commands

theorem written?_of_ended? {time level : α} {command : Command α}
    (ended : ended? time command = some level) (base : α) :
    written? base time command = some (.level level) := by
  cases command with
  | zoom reached start duration center =>
    simp only [ended?, Option.ite_none_right_eq_some, Option.some.injEq] at ended
    obtain ⟨closed, rfl⟩ := ended
    exact if_pos closed
  | follow => cases ended
  | pan => cases ended
  | hold => cases ended

end Zoom

namespace Command

theorem apply_time (index : Nat) (command : Command α) (track : Track α)
    (frame : Frame α) (settled : Settled α) :
    (command.apply index track (frame, settled)).1.time = frame.time := by
  cases command with
  | follow start stop level =>
    change (frame.follow start stop level track).time = frame.time
    unfold Frame.follow
    split <;> rfl
  | zoom level start duration center =>
    change (settled.zoomStep frame level start duration center track).1.time = frame.time
    unfold Settled.zoomStep
    split <;> rfl
  | pan goal start duration =>
    change (settled.panStep index frame goal start duration track).1.time = frame.time
    unfold Settled.panStep
    split
    · rfl
    · rfl
    · dsimp only
      split <;> rfl
  | hold start stop =>
    change (frame.hold start stop settled).time = frame.time
    unfold Frame.hold
    split <;> rfl

omit [Number α] in
theorem noteOrigin_zoom (settled : Settled α) (index : Nat) (frame : Frame α) :
    (settled.noteOrigin index frame).zoom = settled.zoom := by
  unfold Settled.noteOrigin
  split <;> rfl

theorem panStep_zoom (settled : Settled α) (index : Nat) (frame : Frame α) (goal : Target α)
    (start duration : α) (track : Track α) :
    (settled.panStep index frame goal start duration track).1.zoom = frame.zoom ∧
      (settled.panStep index frame goal start duration track).2.zoom = settled.zoom := by
  unfold Settled.panStep
  split
  · exact ⟨rfl, rfl⟩
  · exact ⟨rfl, noteOrigin_zoom ..⟩
  · dsimp only
    split
    · exact ⟨rfl, noteOrigin_zoom ..⟩
    · exact ⟨rfl, noteOrigin_zoom ..⟩

theorem applyAll_concat (commands : List (Command α)) (command : Command α) (track : Track α)
    (reached : Frame α × Settled α) :
    applyAll (commands ++ [command]) track reached =
      command.apply commands.length track (applyAll commands track reached) := by
  unfold applyAll
  rw [List.zipIdx_append, List.foldl_append, Nat.zero_add]
  rfl

theorem applyAll_time (commands : List (Command α)) (track : Track α) (frame : Frame α)
    (settled : Settled α) : (applyAll commands track (frame, settled)).1.time = frame.time := by
  induction commands using List.reverseRecOn with
  | nil => rfl
  | append_singleton commands command ih =>
    rw [applyAll_concat]
    exact (apply_time ..).trans ih

variable [LawfulNumber α]

theorem apply_zoom {command : Command α} (finite : command.IsFinite) {frame : Frame α}
    (comparable : frame.time ≤ frame.time) (index : Nat) (track : Track α) (settled : Settled α) :
    (command.apply index track (frame, settled)).1.zoom =
        (Zoom.written? settled.zoom frame.time command).getD frame.zoom ∧
      (command.apply index track (frame, settled)).2.zoom =
        (Zoom.ended? frame.time command).getD settled.zoom := by
  cases command with
  | follow start stop level =>
    refine ⟨?_, rfl⟩
    change (frame.follow start stop level track).zoom = _
    simp only [Frame.follow, Zoom.written?]
    split <;> rfl
  | zoom level start duration center =>
    change (settled.zoomStep frame level start duration center track).1.zoom = _ ∧
      (settled.zoomStep frame level start duration center track).2.zoom = _
    simp only [Settled.zoomStep, Zoom.written?, Zoom.ended?]
    have startFinite : isFinite start = true := finite.2.1
    rcases Window.cases_of_time startFinite duration comparable with
      before | ⟨opened, inside⟩ | closed
    · have notClosed := not_lt_of_le (LawfulNumber.le_trans (le_of_lt before)
        (Window.start_le_close startFinite duration))
      have notInside : ¬ (start ≤ frame.time ∧ frame.time ≤ Window.close start duration) :=
        fun both => not_le_of_lt before both.1
      rw [Window.phase_of_before before, if_neg notClosed, if_neg notInside, if_neg notClosed]
      exact ⟨rfl, rfl⟩
    · have notClosed := not_lt_of_le inside
      rw [Window.phase_of_inside opened inside, if_neg notClosed, if_pos ⟨opened, inside⟩,
        if_neg notClosed]
      exact ⟨rfl, rfl⟩
    · rw [Window.phase_of_after startFinite closed, if_pos closed, if_pos closed]
      exact ⟨rfl, rfl⟩
  | pan goal start duration => exact panStep_zoom settled index frame goal start duration track
  | hold start stop =>
    refine ⟨?_, rfl⟩
    change (frame.hold start stop settled).zoom = _
    simp only [Frame.hold, Zoom.written?]
    split <;> rfl

/-- All commands of one frame: the last writer decides, and every writer sees the zoom of the last
window that has ended, for a window that ends behind a writer writes after it. -/
theorem applyAll_zoom {commands : List (Command α)} (finite : ∀ c ∈ commands, c.IsFinite)
    {frame : Frame α} (comparable : frame.time ≤ frame.time) (track : Track α)
    (settled : Settled α) :
    (applyAll commands track (frame, settled)).1.zoom =
        lastSet (Zoom.written? (lastSet (Zoom.ended? frame.time) settled.zoom commands) frame.time)
          frame.zoom commands ∧
      (applyAll commands track (frame, settled)).2.zoom =
        lastSet (Zoom.ended? frame.time) settled.zoom commands := by
  induction commands using List.reverseRecOn with
  | nil => exact ⟨rfl, rfl⟩
  | append_singleton commands command ih =>
    obtain ⟨zoom, base⟩ := ih fun c member => finite c (List.mem_append_left _ member)
    have time := applyAll_time commands track frame settled
    obtain ⟨written, ended⟩ := apply_zoom (finite command (by simp))
      (time ▸ comparable) commands.length track (applyAll commands track (frame, settled)).2
    rw [time, zoom, base] at written
    rw [time, base] at ended
    rw [applyAll_concat, lastSet_concat, lastSet_concat]
    refine ⟨written.trans ?_, ended⟩
    cases ends : Zoom.ended? frame.time command with
    | none => rfl
    | some level =>
      rw [Zoom.written?_of_ended? ends, Zoom.written?_of_ended? ends]
      rfl

end Command

namespace Timeline

theorem carry_zoom (settled : Settled α) (start reached : Point α) :
    (settled.carry start reached).zoom = settled.zoom := by
  unfold Settled.carry
  split <;> rfl

variable [LawfulNumber α] {commands : List (Command α)} {track : Track α} {fps : Int}
  {time : α} {settled : Settled α}

/-- A settled zoom that is not to be seen from a moment on: it is the zoom at rest as long as no
window has ended. -/
def ZoomHidden (commands : List (Command α)) (from_ : α) (settled : Settled α) : Prop :=
  ∀ time, from_ ≤ time → lastSet (Zoom.ended? time) settled.zoom commands = Zoom.base commands time

theorem ended?_later {command : Command α} {later : α} (le : time ≤ later)
    (ended : (Zoom.ended? time command).isSome) : (Zoom.ended? later command).isSome := by
  cases command with
  | zoom level start duration center =>
    simp only [Zoom.ended?] at ended ⊢
    split at ended
    · next closed => rw [if_pos (lt_of_lt_of_le closed le)]; rfl
    · cases ended
  | follow => cases ended
  | pan => cases ended
  | hold => cases ended

omit [LawfulNumber α] in
theorem settled_eq_one (hidden : ZoomHidden commands time settled) (comparable : time ≤ time)
    (quiet : ∀ c ∈ commands, Zoom.ended? time c = none) : settled.zoom = 1 := by
  have rest := hidden time comparable
  unfold Zoom.base at rest
  rwa [lastSet_eq_default quiet, lastSet_eq_default quiet] at rest

omit [LawfulNumber α] in
theorem quiet_of_unwritten {base : α}
    (unwritten : ∀ c ∈ commands, Zoom.written? base time c = none) :
    ∀ c ∈ commands, Zoom.ended? time c = none := by
  intro c member
  cases ends : Zoom.ended? time c with
  | none => rfl
  | some level =>
    have wrote := unwritten c member
    rw [Zoom.written?_of_ended? ends] at wrote
    cases wrote

theorem next_zoom (finite : ∀ c ∈ commands, c.IsFinite) (comparable : time ≤ time)
    (hidden : ZoomHidden commands time settled) :
    (settled.next commands track time).1.zoom = Zoom.decided commands time := by
  have shown : (settled.frame time).time ≤ (settled.frame time).time := comparable
  change (Command.applyAll commands track (settled.frame time, settled)).1.zoom = _
  rw [(Command.applyAll_zoom finite shown track settled).1]
  change lastSet (Zoom.written? (lastSet (Zoom.ended? time) settled.zoom commands) time)
    (.level settled.zoom) commands = _
  rw [hidden time comparable]
  by_cases writes : ∃ c ∈ commands, (Zoom.written? (Zoom.base commands time) time c).isSome
  · obtain ⟨command, member, sets⟩ := writes
    exact lastSet_eq_of_mem member sets _ _
  · have unwritten : ∀ c ∈ commands, Zoom.written? (Zoom.base commands time) time c = none := by
      simpa using writes
    unfold Zoom.decided
    rw [lastSet_eq_default unwritten, lastSet_eq_default unwritten,
      settled_eq_one hidden comparable (quiet_of_unwritten unwritten)]

/-- What a frame settles is hidden from every later one, if what it set out from was. -/
theorem next_hidden (finite : ∀ c ∈ commands, c.IsFinite) (comparable : time ≤ time)
    (hidden : ZoomHidden commands time settled) :
    ZoomHidden commands time (settled.next commands track time).2 := by
  have shown : (settled.frame time).time ≤ (settled.frame time).time := comparable
  intro later le
  change lastSet (Zoom.ended? later) ((Command.applyAll commands track
    (settled.frame time, settled)).2.carry settled.center _).zoom commands = _
  rw [carry_zoom, (Command.applyAll_zoom finite shown track settled).2]
  by_cases ends : ∃ c ∈ commands, (Zoom.ended? later c).isSome
  · obtain ⟨command, member, sets⟩ := ends
    exact lastSet_eq_of_mem member sets _ _
  · -- No window has ended by then, so none had at this frame and it settled nothing.
    have quiet : ∀ c ∈ commands, Zoom.ended? time c = none := by
      intro c member
      by_contra ended
      exact ends ⟨c, member, ended?_later le (Option.isSome_iff_ne_none.mpr ended)⟩
    change lastSet _ (lastSet (Zoom.ended? time) settled.zoom commands) commands = _
    rw [lastSet_eq_default quiet]
    exact hidden later le

theorem ZoomHidden.later (hidden : ZoomHidden commands time settled) {later : α}
    (le : time ≤ later) : ZoomHidden commands later settled :=
  fun moment after => hidden moment (LawfulNumber.le_trans le after)

theorem settledBefore_zoomHidden (finite : ∀ c ∈ commands, c.IsFinite) (positive : 0 < fps)
    (range : isFinite (ofInt fps : α) = true) {initial : Settled α} (one : initial.zoom = 1)
    (index : Nat) :
    ZoomHidden commands (moment fps index) (settledBefore commands track fps initial index) := by
  refine settledBefore_induction (fun index => ZoomHidden commands (moment fps index)) ?_ ?_ index
  · intro time _
    rw [one]
    rfl
  · intro index settled hidden
    have comparable : (moment fps index : α) ≤ moment fps index :=
      moment_le positive range (le_refl index)
    have handed : ZoomHidden commands (moment fps index)
        (settled.next commands track (moment fps index)).2 := next_hidden finite comparable hidden
    exact handed.later (moment_le positive range index.le_succ)

/-- Every frame has the zoom that the commands decide at its moment, taken in the order of their
starts, ties as declared; no earlier frame has a say. There are frames whenever their number is in
range. -/
theorem build_zoom_eq_decided (commands : List (Command α)) (track : Track α) (duration : α)
    (fps : Int) (resolution : Int × Int) (finite : ∀ c ∈ commands, c.IsFinite)
    (positive : 0 < fps) :
    Order.StablySorted Command.start commands (Command.sortByStart commands) ∧
      (∀ frames, build commands track duration fps resolution = .ok frames →
        ∀ frame ∈ frames, frame.zoom = Zoom.decided (Command.sortByStart commands) frame.time) ∧
      (isFinite (duration * ofInt fps) = true →
        ∃ frames, build commands track duration fps resolution = .ok frames) := by
  refine ⟨?_, ?_, ?_⟩
  · exact Order.sortOn_stablySorted fun c member => LawfulNumber.self_le (finite c member).start
  · intro frames built frame member
    obtain ⟨count, counted, rfl⟩ := build_eq_ok_iff.mp built
    obtain ⟨index, _, rfl⟩ := List.mem_map.mp member
    have range := LawfulNumber.isFinite_of_mul (isFinite_of_frameCount counted)
    have sorted : ∀ c ∈ Command.sortByStart commands, c.IsFinite := fun c placed =>
      finite c ((Order.sortOn_perm Command.start commands).subset placed)
    have comparable : (moment fps index : α) ≤ moment fps index :=
      moment_le positive range (le_refl index)
    have hidden : ZoomHidden (Command.sortByStart commands) (moment fps index)
        (settledBefore (Command.sortByStart commands) track fps
          (Settled.initial resolution.1 resolution.2) index) :=
      settledBefore_zoomHidden sorted positive range rfl index
    have time : (frameAt (Command.sortByStart commands) track fps
        (Settled.initial resolution.1 resolution.2) index).time = moment fps index :=
      Command.applyAll_time ..
    rw [time]
    exact next_zoom sorted comparable hidden
  · intro range
    obtain ⟨count, counted⟩ := frameCount_of_isFinite range
    exact ⟨_, build_eq_ok_iff.mpr ⟨count, counted, rfl⟩⟩

/-- A zoom that starts in another's window and a hold over both. -/
theorem build_zoom_eq_decided_overlapping :
    let commands : List (Command Rat) :=
      [.hold 0 5, .zoom 3 0 2 .mouse, .zoom 2 (1 / 2) (1 / 2) (.point ⟨10, 20⟩)]
    ∃ frames, build commands [] 4 2 (1920, 1080) = .ok frames ∧
      ∀ frame ∈ frames, frame.zoom = Zoom.decided (Command.sortByStart commands) frame.time := by
  intro commands
  obtain ⟨_, zooms, exists_⟩ := build_zoom_eq_decided commands [] 4 2 (1920, 1080)
    (by simp [commands, Command.IsFinite, Target.IsFinite, isFinite, exact, Exact.ofRat,
      Exact.isFinite]) (by decide)
  obtain ⟨frames, built⟩ := exists_ rfl
  exact ⟨frames, built, zooms frames built⟩

end Timeline

end Screencast
