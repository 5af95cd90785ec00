import Mathlib
import Screencast.Proofs.Audio.Turns
import Screencast.Proofs.Curve.Interpolation
import Screencast.Proofs.Order

/-!
Where the volume of a channel comes to rest. A ramp that goes on when the next one begins is
followed to its end, so the curve is sure to be at the last level only when all ramps are over, the
ones before the last included. In a recorded session this is the level at which the channel rests.
-/

namespace Screencast

open Number

variable {α : Type} [Number α]

namespace Automation

def Ramp.begin (ramp : Ramp α) : α := ramp.time / 1000

def Ramp.finish (ramp : Ramp α) : α := (ramp.time + larger 0 ramp.length) / 1000

theorem Ramp.begin_le_finish (ramp : Ramp Rat) : ramp.begin ≤ ramp.finish := by
  have nonneg : (0 : Rat) ≤ larger 0 ramp.length := zero_le_larger ramp.length
  have scale : (0 : Rat) ≤ 1000 := by norm_num
  exact div_le_div_of_nonneg_right (by linarith) scale

theorem getLast?_corners (current : α) (ramps : List (Ramp α)) :
    (corners current ramps).getLast? =
      ramps.getLast?.map fun ramp => (ramp.finish, ramp.level) := by
  induction ramps generalizing current with
  | nil => rfl
  | cons ramp rest ih =>
    cases rest with
    | nil => rfl
    | cons next rest =>
      have later := ih ramp.level
      rw [corners] at later
      rw [corners, corners, List.getLast?_cons_cons, List.getLast?_cons_cons, later,
        List.getLast?_cons_cons]

theorem exists_finish_of_mem_corners {current : Rat} {ramps : List (Ramp Rat)} {corner : Rat × Rat}
    (member : corner ∈ corners current ramps) : ∃ ramp ∈ ramps, corner.1 ≤ ramp.finish := by
  induction ramps generalizing current with
  | nil => cases member
  | cons ramp rest ih =>
    simp only [corners, List.mem_cons] at member
    rcases member with rfl | rfl | later
    · exact ⟨ramp, by simp, ramp.begin_le_finish⟩
    · exact ⟨ramp, by simp, le_rfl⟩
    · obtain ⟨other, inRest, le⟩ := ih later
      exact ⟨other, List.mem_cons_of_mem _ inRest, le⟩

/-- Whether the volume that some events command stays at a level from the end of all ramps on. -/
def SettlesOn (initial : Rat) (events : List (Event Rat)) (level : Rat) : Prop :=
  ∃ curve, ofEvents initial events = some curve ∧
    ∀ time, (∀ ramp ∈ events.filterMap ramp?, ramp.finish + 1 / 200 ≤ time) →
      curve.eval time = .ok (roundTo 3 level)

theorem ofEvents_eq_ofRamps (initial : α) {events : List (Event α)}
    (changed : events.filterMap ramp? ≠ []) :
    ofEvents initial events = some (ofRamps initial (events.filterMap ramp?)) := by
  unfold ofEvents
  split
  · next none => exact absurd none changed
  · rfl

/-- The last ramp is one that none of those before it and all of those behind it precede in time. -/
theorem settlesOn_of_last (initial : Rat) {events : List (Event Rat)}
    {before after : List (Ramp Rat)} {last : Ramp Rat}
    (ramps : events.filterMap ramp? = before ++ last :: after)
    (notLater : ∀ ramp ∈ before, ramp.time ≤ last.time)
    (earlier : ∀ ramp ∈ after, ramp.time < last.time) : SettlesOn initial events last.level := by
  refine ⟨_, ofEvents_eq_ofRamps initial (by simp [ramps]), fun time finished => ?_⟩
  have sortedLast : (Order.sortOn Ramp.time (events.filterMap ramp?)).getLast? = some last := by
    rw [ramps]
    exact Order.getLast?_sortOn (fun ramp member => not_lt_of_le (notLater ramp member)) earlier
  have isLast : (corners initial (Order.sortOn Ramp.time (events.filterMap ramp?))).getLast? =
      some (last.finish, last.level) := by
    rw [getLast?_corners, sortedLast]
    rfl
  have ends : ((0, initial) :: corners initial (Order.sortOn Ramp.time
      (events.filterMap ramp?))).getLast? = some (last.finish, last.level) := by
    rw [List.getLast?_cons, isLast]
    rfl
  refine Curve.eval_piecewise_of_past (by decide : (0 : Int) ≤ 3) 4 ends ?_
  intro corner member
  obtain ⟨ramp, inSorted, le⟩ := exists_finish_of_mem_corners member
  have inRamps := (Order.sortOn_perm Ramp.time (events.filterMap ramp?)).subset inSorted
  have written := (abs_le.mp (Curve.abs_moment_sub_le corner.1)).2
  have ended := finished ramp inRamps
  linarith

set_option maxRecDepth 4000 in
/-- While a long ramp goes on, the change that cuts into it is not heard: a second after the volume
was set to a fifth it is nine tenths. -/
theorem overlap_unsettled :
    let events : List (Event Rat) := [⟨2, 0, .volume (some (.amount (1 / 2))) 10000⟩,
      ⟨2, 1000, .volume (some (.amount (1 / 5))) 0⟩]
    let last : Ramp Rat := ⟨1000, 0, 1 / 5⟩
    events.filterMap ramp? = [⟨0, 10000, 1 / 2⟩, last] ∧
      ∃ curve, ofEvents 1 events = some curve ∧ last.finish + 1 / 200 ≤ 2 ∧
        curve.eval 2 = .ok (9 / 10) ∧ curve.eval 2 ≠ .ok (roundTo 3 last.level) := by
  intro events last
  have late : last.finish + 1 / 200 ≤ 2 := by
    norm_num [last, Ramp.finish, larger_eq_max]
  have drawn : ofRamps 1 [⟨0, 10000, 1 / 2⟩, last] =
      .piecewise 3 4 [(0, 1), (0, 1), (10, 1 / 2), (1, 1 / 2), (1, 1 / 5)] := by
    cbv
  have heard : (ofRamps 1 [⟨0, 10000, 1 / 2⟩, last]).eval 2 = .ok (9 / 10) := by
    rw [drawn]
    cbv
  have fifth : roundTo 3 last.level = 1 / 5 := by
    norm_num [last, roundTo, Rounding.nearest]
  refine ⟨rfl, _, rfl, late, heard, ?_⟩
  rw [fifth]
  intro same
  have equal := Except.ok.inj (heard.symm.trans same)
  norm_num at equal

end Automation

open Automation

theorem Event.time_of_ramp {event : Event α} {ramp : Ramp α} (made : ramp? event = some ramp) :
    ramp.time = event.time := by
  unfold ramp? at made
  split at made
  · exact congrArg Ramp.time (Option.some_inj.mp made).symm
  · exact congrArg Ramp.time (Option.some_inj.mp made).symm
  · cases made

namespace Session

def eventsOn (session : Session α) (id : Int) : List (Event α) :=
  session.timeline.filter (·.channel == id)

/-- Whether each channel has the volume to which it was changed last. -/
def Resting (session : Session α) : Prop :=
  ∀ id, ∀ last ∈ ((session.eventsOn id).filterMap ramp?).getLast?,
    last.level = (session.channel id).volume

omit [Number α] in
theorem eventsOn_record (session : Session α) (events : List (Event α)) (id : Int) :
    (session.record events).eventsOn id = session.eventsOn id ++ events.filter (·.channel == id) :=
  List.filter_append ..

variable {session next : Session α} {time : α}

theorem Resting.record (resting : session.Resting) {events : List (Event α)}
    (quiet : ∀ event ∈ events, ramp? event = none) {active : Table Int (Playing α)} :
    ({ session.record events with active } : Session α).Resting := by
  intro id last isLast
  change last ∈ (((session.record events).eventsOn id).filterMap ramp?).getLast? at isLast
  have none : (events.filter (·.channel == id)).filterMap ramp? = [] :=
    List.filterMap_eq_nil_iff.mpr fun event member => quiet event (List.mem_filter.mp member).1
  rw [eventsOn_record, List.filterMap_append, none, List.append_nil] at isLast
  exact resting id last isLast

theorem Resting.play (resting : session.Resting) (least : α) (id : Int) (cue : Cue α) :
    (session.play least time id cue).Resting := by
  refine resting.record fun event member => ?_
  unfold giveWay at member
  split at member
  · simp only [List.cons_append, List.nil_append, List.mem_cons, List.not_mem_nil,
      or_false] at member
    rcases member with rfl | rfl <;> rfl
  · rw [List.nil_append, List.mem_singleton] at member
    subst member
    rfl

theorem Resting.stop (resting : session.Resting) (fadeOut : α) (targets : List Int) :
    (session.stop time fadeOut targets).Resting := by
  unfold Session.stop
  induction targets generalizing session with
  | nil => exact resting
  | cons id rest ih =>
    refine ih (resting.record fun event member => ?_)
    rw [List.mem_singleton.mp member]
    rfl

theorem Resting.setVolume (resting : session.Resting) (id : Int) (level length : α) :
    (session.setVolume time id level length).Resting := by
  intro other last isLast
  change last ∈ (((session.record [⟨id, time, .volume (some (.amount (bounded level)))
    (larger 0 length)⟩]).eventsOn other).filterMap ramp?).getLast? at isLast
  rw [eventsOn_record] at isLast
  rw [channel_setVolume]
  by_cases same : id = other
  · have made : [(⟨id, time, .volume (some (.amount (bounded level))) (larger 0 length)⟩ :
        Event α)].filterMap ramp? = [⟨time, larger 0 length, bounded level⟩] := rfl
    rw [List.filter_cons_of_pos (by simpa using same), List.filter_nil, List.filterMap_append,
      made, List.getLast?_concat] at isLast
    rw [if_pos same, ← Option.some_inj.mp isLast]
  · rw [List.filter_cons_of_neg (by simpa using same)] at isLast
    rw [if_neg same]
    exact resting other last (by simpa using isLast)

theorem Resting.step (resting : session.Resting) (step : Step time session next) :
    next.Resting := by
  cases step with
  | idle => exact resting
  | play least id cue => exact resting.play least id cue
  | stop fadeOut targets => exact resting.stop fadeOut targets
  | volume id level ramp => exact resting.setVolume id level ramp

theorem Resting.of_empty (empty : session.timeline = []) : session.Resting := by
  intro id last isLast
  simp [eventsOn, empty] at isLast

end Session

namespace Studio

/-- Whatever is done while recording, each channel has the volume to which it was changed last. -/
theorem run_resting {studio : Studio α} (moves : List (α × Move α))
    (resting : studio.session.Resting) : (studio.run moves).session.Resting := by
  induction moves generalizing studio with
  | nil => exact resting
  | cons first rest ih =>
    obtain ⟨reading, move⟩ := first
    refine ih ?_
    cases isBegin : move.isBegin with
    | true =>
      obtain rfl := Move.eq_begin isBegin
      exact resting
    | false => exact resting.step (Move.step isBegin reading studio)

/-- Once all ramps are over the volume stays at the level of the last of them, that is the last in
time, and of those at one time the last that came. In a session without declared clips this is the
volume that the channel has. -/
theorem volume_settles {studio : Studio Rat} {moves : List (Rat × Move Rat)}
    (undeclared : studio.session.timeline = []) (unbegun : studio.session.start = none)
    (forward : (moves.map (·.1)).Pairwise (· ≤ ·)) (once : moves.countP (·.2.isBegin) ≤ 1) :
    (∀ (initial : Rat) (events : List (Event Rat)) (before after : List (Ramp Rat))
        (last : Ramp Rat), events.filterMap ramp? = before ++ last :: after →
      (∀ ramp ∈ before, ramp.time ≤ last.time) → (∀ ramp ∈ after, ramp.time < last.time) →
        SettlesOn initial events last.level) ∧
      ∀ (initial : Rat) (id : Int), ((studio.run moves).session.eventsOn id).filterMap ramp? ≠ [] →
        SettlesOn initial ((studio.run moves).session.eventsOn id)
          ((studio.run moves).session.channel id).volume := by
  refine ⟨fun initial events before after last => settlesOn_of_last initial, ?_⟩
  intro initial id changed
  obtain ⟨time, turn⟩ := run_inTurn_of_new undeclared unbegun (fun _ _ => rfl) forward once
  have resting := run_resting moves (.of_empty undeclared)
  obtain ⟨before, last, split⟩ := (List.eq_nil_or_concat _).resolve_left changed
  rw [List.concat_eq_append] at split
  have ordered : ((((studio.run moves).session.eventsOn id).filterMap ramp?)).Pairwise
      fun earlier later => earlier.time ≤ later.time := by
    refine List.Pairwise.filterMap ramp? ?_ (turn.ordered.sublist List.filter_sublist)
    intro first second le earlier isEarlier later isLater
    rw [Event.time_of_ramp isEarlier, Event.time_of_ramp isLater]
    exact le
  rw [split] at ordered
  have level : last.level = ((studio.run moves).session.channel id).volume :=
    resting id last (by rw [split]; simp)
  rw [← level]
  have earlier := (List.pairwise_append.mp ordered).2.2
  exact settlesOn_of_last initial split (fun ramp member => earlier ramp member last (by simp))
    fun ramp member => nomatch member

/-- A ramp of ten seconds into which another change cuts after one. -/
theorem volume_settles_overlapping :
    let studio : Studio Rat :=
      { settings := {}, host := { known := [] }, session := Session.new, clock := 0 }
    let moves : List (Rat × Move Rat) :=
      [(5, .begin), (5, .volume 2 (1 / 2) 10000), (6, .volume 2 (1 / 5) 0)]
    ((studio.run moves).session.channel 2).volume = 1 / 5 ∧
      SettlesOn 1 ((studio.run moves).session.eventsOn 2) (1 / 5) := by
  intro studio moves
  have forward : (moves.map (·.1)).Pairwise (· ≤ ·) := by
    simp only [moves, List.map_cons, List.map_nil]
    change [(5 : Rat), 5, 6].Pairwise fun x y => (x : Rat) ≤ y
    decide
  have rests : ((studio.run moves).session.channel 2).volume = 1 / 5 := by
    cbv
  have ramps : ((studio.run moves).session.eventsOn 2).filterMap ramp? =
      [⟨0, 10000, 1 / 2⟩, ⟨1000, 0, 1 / 5⟩] := by
    cbv
  have undeclared : studio.session.timeline = [] := rfl
  have settled := (volume_settles undeclared rfl forward (by decide)).2 1 2
    (ramps ▸ List.cons_ne_nil _ _)
  rw [rests] at settled
  exact ⟨rests, settled⟩

end Studio

end Screencast
