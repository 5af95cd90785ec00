import Mathlib.Data.List.Induction
import Screencast.Proofs.Order
import Screencast.Proofs.Viewport.Run
import Screencast.Proofs.Viewport.Zoom

/-!
What is still to come does not change what is seen. A command leaves every frame before its start
as it is, and in the order of their starts those that have begun stand in front, so that what comes
later moves none of them. Hence a frame is told by the commands that start up to its time.
-/

namespace Screencast

open Number

variable {α : Type} [Number α]

namespace Command

def startsAt (start : α) (command : Command α) : Bool :=
  start ≤ command.start && command.start ≤ start

/-- The commands that start up to a time, in the order in which they are applied. -/
def upTo (bound : α) (commands : List (Command α)) : List (Command α) :=
  (sortByStart commands).filter (·.start ≤ bound)

variable [LawfulNumber α] {frame : Frame α} {settled : Settled α}

theorem not_within_of_before {time start : α} (before : time < start) (stop : α) :
    within time start stop = false := by
  simp [within, not_le_of_lt before]

theorem apply_of_before {command : Command α} (before : frame.time < command.start) (index : Nat)
    (track : Track α) : command.apply index track (frame, settled) = (frame, settled) := by
  cases command with
  | follow start stop level =>
    have notYet : frame.time < start := before
    change (frame.follow start stop level track, settled) = _
    rw [Frame.follow, not_within_of_before notYet]
    rfl
  | zoom level start duration center =>
    have notYet : frame.time < start := before
    change settled.zoomStep frame level start duration center track = _
    rw [Settled.zoomStep, Window.phase_of_before notYet]
  | pan goal start duration =>
    have notYet : frame.time < start := before
    change settled.panStep index frame goal start duration track = _
    rw [Settled.panStep, Window.phase_of_before notYet]
  | hold start stop =>
    have notYet : frame.time < start := before
    change (frame.hold start stop settled, settled) = _
    rw [Frame.hold, not_within_of_before notYet]
    rfl

/-- Commands that are still to come add nothing behind those that are applied. -/
theorem applyAll_append_of_before (begun : List (Command α)) {later : List (Command α)}
    (before : ∀ c ∈ later, frame.time < c.start) (track : Track α) :
    applyAll (begun ++ later) track (frame, settled) = applyAll begun track (frame, settled) := by
  induction later using List.reverseRecOn with
  | nil => rw [List.append_nil]
  | append_singleton later command ih =>
    rw [← List.append_assoc, applyAll_concat, ih fun c member => before c (by simp [member])]
    have notYet : (applyAll begun track (frame, settled)).1.time < command.start := by
      rw [applyAll_time]
      exact before command (by simp)
    exact apply_of_before notYet _ track

omit [LawfulNumber α] in
theorem mem_of_mem_upTo {bound : α} {commands : List (Command α)} {command : Command α}
    (member : command ∈ upTo bound commands) : command ∈ commands :=
  (Order.sortOn_perm start commands).subset (List.mem_filter.mp member).1

theorem filter_tied_upTo {bound : α} {commands : List (Command α)}
    (stably : Order.StablySorted start commands (sortByStart commands)) (command : Command α) :
    (upTo bound commands).filter (Order.tied start command) =
      if command.start ≤ bound then commands.filter (startsAt command.start) else [] := by
  split
  · next early =>
    have all : commands.filter (startsAt command.start) =
        (sortByStart commands).filter (Order.tied start command) := (stably.stable command).symm
    rw [all, upTo, List.filter_filter]
    refine List.filter_congr fun other _ => ?_
    by_cases isTied : Order.tied start command other = true
    · have bounded : other.start ≤ bound := by
        simp only [Order.tied, Bool.and_eq_true, decide_eq_true_eq] at isTied
        exact LawfulNumber.le_trans isTied.2 early
      simp [isTied, bounded]
    · simp [isTied]
  · next late =>
    refine List.filter_eq_nil_iff.mpr fun other member isTied => late ?_
    simp only [upTo, List.mem_filter, decide_eq_true_eq] at member
    simp only [Order.tied, Bool.and_eq_true, decide_eq_true_eq] at isTied
    exact LawfulNumber.le_trans isTied.1 member.2

/-- The commands up to a bound, and their order, hang on nothing but which commands start at each
time up to it, one behind another. -/
theorem upTo_eq {bound : α} {commands others : List (Command α)}
    (comparable : ∀ c ∈ commands ++ others, c.start ≤ c.start)
    (same : ∀ start, start ≤ bound →
      commands.filter (startsAt start) = others.filter (startsAt start)) :
    upTo bound commands = upTo bound others := by
  have sorted : Order.StablySorted start commands (sortByStart commands) :=
    Order.sortOn_stablySorted fun c member => comparable c (List.mem_append_left _ member)
  have sortedToo : Order.StablySorted start others (sortByStart others) :=
    Order.sortOn_stablySorted fun c member => comparable c (List.mem_append_right _ member)
  refine Order.eq_of_ordered ?_ (sorted.ordered.filter _)
    (sortedToo.ordered.filter _) fun c => ?_
  · intro c member
    rcases List.mem_append.mp member with here | there
    · exact comparable c (List.mem_append_left _ (mem_of_mem_upTo here))
    · exact comparable c (List.mem_append_right _ (mem_of_mem_upTo there))
  · rw [filter_tied_upTo sorted, filter_tied_upTo sortedToo]
    split
    · next early => exact same c.start early
    · rfl

end Command

namespace Timeline

theorem frameAt_time (commands : List (Command α)) (track : Track α) (fps : Int)
    (initial : Settled α) (index : Nat) :
    (frameAt commands track fps initial index).time = moment fps index :=
  Command.applyAll_time ..

variable [LawfulNumber α] {commands : List (Command α)} {track : Track α} {fps : Int}

theorem next_append_of_before (begun : List (Command α)) {later : List (Command α)} {time : α}
    (before : ∀ c ∈ later, time < c.start) (settled : Settled α) :
    settled.next (begun ++ later) track time = settled.next begun track time := by
  unfold Settled.next
  rw [Command.applyAll_append_of_before begun before]

/-- As long as the frames stay up to a bound, only the commands up to it are seen in them. -/
theorem frameAt_sortByStart {bound : α} (positive : 0 < fps)
    (range : isFinite (ofInt fps : α) = true)
    (comparable : ∀ c ∈ commands, c.start ≤ c.start) (initial : Settled α) {index : Nat}
    (early : (moment fps index : α) ≤ bound) :
    frameAt (Command.sortByStart commands) track fps initial index =
      frameAt (Command.upTo bound commands) track fps initial index := by
  have stably : Order.StablySorted Command.start commands (Command.sortByStart commands) :=
    Order.sortOn_stablySorted comparable
  have split : Command.sortByStart commands = Command.upTo bound commands ++
      (Command.sortByStart commands).filter (¬ ·.start ≤ bound) :=
    Order.eq_filter_append_filter stably.ordered
  have later : ∀ c ∈ (Command.sortByStart commands).filter (¬ ·.start ≤ bound),
      bound < c.start := by
    intro c member
    obtain ⟨placed, late⟩ := List.mem_filter.mp member
    exact lt_of_not_le (comparable c (stably.perm.subset placed))
      (LawfulNumber.self_le_right early) (by simpa using late)
  have step : ∀ {moment : α}, moment ≤ bound → ∀ settled : Settled α,
      settled.next (Command.sortByStart commands) track moment =
        settled.next (Command.upTo bound commands) track moment := by
    intro moment notPast settled
    rw [split]
    exact next_append_of_before _ (fun c member => lt_of_le_of_lt notPast (later c member)) settled
  -- Every earlier frame lies before the bound as well, so both orders hand on the same.
  have before : settledBefore (Command.sortByStart commands) track fps initial index =
      settledBefore (Command.upTo bound commands) track fps initial index := by
    induction index with
    | zero => rfl
    | succ index ih =>
      have earlier : (moment fps index : α) ≤ bound :=
        LawfulNumber.le_trans (moment_le positive range index.le_succ) early
      rw [settledBefore_succ, settledBefore_succ, ih earlier, step earlier]
  rw [frameAt, frameAt, before, step early]

/-- Commands that start after a bound change no frame up to it, and neither does the order in which
the others were declared, but for that of those with one start. -/
theorem build_past_eq (commands others : List (Command α)) (track : Track α) (duration : α)
    (fps : Int) (resolution : Int × Int) (bound : α)
    (comparable : ∀ c ∈ commands ++ others, c.start ≤ c.start) (positive : 0 < fps)
    (same : ∀ start, start ≤ bound →
      commands.filter (Command.startsAt start) = others.filter (Command.startsAt start)) :
    (isFinite (duration * ofInt fps) = true →
      ∃ frames, build commands track duration fps resolution = .ok frames) ∧
    ∀ frames, build commands track duration fps resolution = .ok frames →
      ∃ frames', build others track duration fps resolution = .ok frames' ∧
        frames'.length = frames.length ∧
        (∀ (index : Nat) (frame : Frame α), frames[index]? = some frame → frame.time ≤ bound →
          frames'[index]? = some frame) ∧
        ((∀ frame ∈ frames, frame.time ≤ bound) → frames' = frames) := by
  refine ⟨fun range => ?_, fun frames built => ?_⟩
  · obtain ⟨count, counted⟩ := frameCount_of_isFinite range
    exact ⟨_, build_eq_ok_iff.mpr ⟨count, counted, rfl⟩⟩
  · obtain ⟨count, counted, rfl⟩ := build_eq_ok_iff.mp built
    have range := LawfulNumber.isFinite_of_mul (isFinite_of_frameCount counted)
    have seen : ∀ index, (moment fps index : α) ≤ bound →
        frameAt (Command.sortByStart others) track fps
            (Settled.initial resolution.1 resolution.2) index =
          frameAt (Command.sortByStart commands) track fps
            (Settled.initial resolution.1 resolution.2) index := by
      intro index early
      rw [frameAt_sortByStart positive range
          (fun c member => comparable c (List.mem_append_left _ member)) _ early,
        frameAt_sortByStart positive range
          (fun c member => comparable c (List.mem_append_right _ member)) _ early,
        Command.upTo_eq comparable same]
    refine ⟨_, build_eq_ok_iff.mpr ⟨count, counted, rfl⟩, by simp, ?_, ?_⟩
    · intro index frame found early
      rw [List.getElem?_map] at found ⊢
      obtain ⟨number, isNumber, rfl⟩ := Option.map_eq_some_iff.mp found
      rw [frameAt_time] at early
      rw [isNumber, Option.map_some, seen number early]
    · intro early
      refine List.map_congr_left fun index member => seen index ?_
      rw [← frameAt_time (Command.sortByStart commands) track fps
        (Settled.initial resolution.1 resolution.2)]
      exact early _ (List.mem_map_of_mem member)

/-- A pan and a zoom declared the other way round, with a hold or a follow to come after them. -/
theorem build_past_eq_reordered :
    let commands : List (Command Rat) :=
      [.zoom 2 1 1 .mouse, .hold 5 6, .pan (.point ⟨10, 20⟩) 0 3]
    let others : List (Command Rat) :=
      [.pan (.point ⟨10, 20⟩) 0 3, .zoom 2 1 1 .mouse, .follow 4 8 .unset]
    ∃ frames frames', build commands [⟨0, 5, 5⟩] 8 2 (1920, 1080) = .ok frames ∧
      build others [⟨0, 5, 5⟩] 8 2 (1920, 1080) = .ok frames' ∧
      ∀ (index : Nat) (frame : Frame Rat), frames[index]? = some frame → frame.time ≤ 3 →
        frames'[index]? = some frame := by
  intro commands others
  have same : ∀ start : Rat, start ≤ 3 →
      commands.filter (Command.startsAt start) = others.filter (Command.startsAt start) := by
    intro start early
    have decided : ∀ c : Command Rat, Command.startsAt start c = decide (start = c.start) :=
      fun c => by simp [Command.startsAt, le_antisymm_iff]
    have notFive : start ≠ 5 := by
      rintro rfl
      exact absurd early (by decide)
    have notFour : start ≠ 4 := by
      rintro rfl
      exact absurd early (by decide)
    simp only [commands, others, List.filter_cons, List.filter_nil, decided, Command.start,
      notFive, notFour, decide_false, Bool.false_eq_true, if_false]
    by_cases isOne : start = 1
    · simp [isOne]
    · simp [isOne]
  obtain ⟨exists_, past⟩ := build_past_eq commands others [⟨0, 5, 5⟩] 8 2 (1920, 1080) 3
    (fun c _ => Rat.le_refl) (by decide) same
  obtain ⟨frames, built⟩ := exists_ rfl
  obtain ⟨frames', builtToo, _, equal, _⟩ := past frames built
  exact ⟨frames, frames', built, builtToo, equal⟩

end Timeline

end Screencast
