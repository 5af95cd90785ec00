import Screencast.Proofs.Number.Lawful
import Screencast.Viewport.Timeline

/-!
The timeline as a run: the state before each frame, and the frame that follows from it. A property
of all frames is one of the state that every frame hands on.
-/

namespace Screencast.Timeline

open Number

variable {α : Type} [Number α]

def settledBefore (commands : List (Command α)) (track : Track α) (fps : Int)
    (initial : Settled α) (index : Nat) : Settled α :=
  (run commands track fps initial index).2

def frameAt (commands : List (Command α)) (track : Track α) (fps : Int)
    (initial : Settled α) (index : Nat) : Frame α :=
  ((settledBefore commands track fps initial index).next commands track (moment fps index)).1

variable {commands : List (Command α)} {track : Track α} {fps : Int} {initial : Settled α}

theorem run_succ (count : Nat) :
    run commands track fps initial (count + 1) =
      ((run commands track fps initial count).1.push (frameAt commands track fps initial count),
        ((settledBefore commands track fps initial count).next commands track
          (moment fps count)).2) := by
  unfold run
  rw [List.range_succ, List.foldl_append]
  rfl

theorem settledBefore_succ (count : Nat) :
    settledBefore commands track fps initial (count + 1) =
      ((settledBefore commands track fps initial count).next commands track
        (moment fps count)).2 := by
  unfold settledBefore
  rw [run_succ]
  rfl

theorem run_frames (count : Nat) :
    (run commands track fps initial count).1.toList =
      (List.range count).map (frameAt commands track fps initial) := by
  induction count with
  | zero => rfl
  | succ count ih =>
    rw [run_succ, Array.toList_push, ih, List.range_succ, List.map_append]
    rfl

/-- What the first state has and every frame hands on, the state before every frame has. -/
theorem settledBefore_induction (holds : Nat → Settled α → Prop) (first : holds 0 initial)
    (step : ∀ index settled, holds index settled →
      holds (index + 1) (settled.next commands track (moment fps index)).2) (index : Nat) :
    holds index (settledBefore commands track fps initial index) := by
  induction index with
  | zero => exact first
  | succ index ih =>
    rw [settledBefore_succ]
    exact step index _ ih

theorem isFinite_of_frameCount {duration : α} {count : Nat}
    (counted : frameCount duration fps = .ok count) :
    isFinite (duration * ofInt fps) = true := by
  unfold frameCount at counted
  unfold isFinite
  cases value : exact (duration * ofInt fps) with
  | nan => rw [value] at counted; cases counted
  | infinite negative => rw [value] at counted; cases counted
  | ratio negative num den => rfl

theorem frameCount_of_isFinite {duration : α} (finite : isFinite (duration * ofInt fps) = true) :
    ∃ count, frameCount duration fps = .ok count := by
  unfold isFinite at finite
  unfold frameCount
  cases value : exact (duration * ofInt fps) with
  | nan => rw [value] at finite; cases finite
  | infinite negative => rw [value] at finite; cases finite
  | ratio negative num den => exact ⟨_, rfl⟩

theorem build_eq_ok_iff {duration : α} {resolution : Int × Int} {frames : List (Frame α)} :
    build commands track duration fps resolution = .ok frames ↔
      ∃ count, frameCount duration fps = .ok count ∧
        frames = (List.range count).map (frameAt (Command.sortByStart commands) track fps
          (Settled.initial resolution.1 resolution.2)) := by
  unfold build
  cases counted : frameCount duration fps with
  | error failure => simp [Except.map]
  | ok count => simp [Except.map, run_frames, eq_comm]

theorem eq_frameAt_of_build {duration : α} {resolution : Int × Int} {frames : List (Frame α)}
    (built : build commands track duration fps resolution = .ok frames) {index : Nat}
    {frame : Frame α} (found : frames[index]? = some frame) :
    isFinite (duration * ofInt fps) = true ∧
      frame = frameAt (Command.sortByStart commands) track fps
        (Settled.initial resolution.1 resolution.2) index := by
  obtain ⟨count, counted, rfl⟩ := build_eq_ok_iff.mp built
  rw [List.getElem?_map] at found
  obtain ⟨number, isNumber, rfl⟩ := Option.map_eq_some_iff.mp found
  obtain ⟨inside, rfl⟩ := List.getElem?_eq_some_iff.mp isNumber
  rw [List.getElem_range]
  exact ⟨isFinite_of_frameCount counted, rfl⟩

theorem moment_le [LawfulNumber α] (positive : 0 < fps) (finite : isFinite (ofInt fps : α) = true)
    {earlier later : Nat} (le : earlier ≤ later) :
    (moment fps earlier : α) ≤ moment fps later :=
  LawfulNumber.div_le_div finite (LawfulNumber.ofInt_pos positive)
    (LawfulNumber.ofInt_le (by exact_mod_cast le))

end Screencast.Timeline
