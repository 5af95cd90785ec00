import Mathlib
import Screencast.Proofs.Audio.Operation
import Screencast.Proofs.Audio.Turns
import Screencast.Proofs.Number.Lawful

/-!
What a session takes to be playing is what its recording says. Through all operations the table of
what is playing agrees with the recorded events, channel by channel: a channel is in it just when
its last turn is a play, and then with the clip of this very play. The clips that a configuration
declares are not recorded, they stand in the timeline beside what was.
-/

namespace Screencast

open Number

variable {α : Type}

namespace Event

def isTurn (event : Event α) : Bool :=
  match event.action with
  | .play _ | .stop _ => true
  | .volume .. => false

def lastTurn (id : Int) (events : List (Event α)) : Option (Event α) :=
  (events.filter fun event => event.channel == id && event.isTurn).getLast?

theorem lastTurn_concat (id : Int) (events : List (Event α)) (event : Event α) :
    lastTurn id (events ++ [event]) =
      if event.channel = id ∧ event.isTurn = true then some event else lastTurn id events := by
  unfold lastTurn
  rw [List.filter_append]
  split
  · next turns =>
    rw [List.filter_cons_of_pos (by simpa using turns), List.filter_nil, List.getLast?_concat]
  · next other =>
    rw [List.filter_cons_of_neg (by simpa using other), List.filter_nil, List.append_nil]

theorem playing_eq_lastTurn (id : Int) (events : List (Event α)) :
    playing id events = (lastTurn id events).any isPlay := by
  induction events using List.reverseRecOn with
  | nil => rfl
  | append_singleton events event ih =>
    rw [playing_concat, lastTurn_concat, ih]
    unfold holds isTurn
    by_cases same : event.channel = id
    · cases action : event.action <;> simp [same, isPlay, action]
    · simp [same]

end Event

structure Playing.BeganWith (playing : Playing α) (event : Event α) : Prop where
  time : event.time = playing.start
  clip : ∃ clip, event.action = .play clip ∧ clip.file = some playing.file ∧
    clip.length = playing.length ∧ clip.fadeIn = playing.fadeIn ∧
    clip.fadeOut = playing.fadeOut ∧ clip.loop = playing.loop

theorem Playing.BeganWith.isPlay {playing : Playing α} {event : Event α}
    (began : playing.BeganWith event) : event.isPlay = true := by
  obtain ⟨clip, action, _⟩ := began.clip
  simp [Event.isPlay, action]

namespace Session

/-- Whether what is playing agrees with what was recorded. -/
structure Mirrors (session : Session α) (recorded : List (Event α)) : Prop where
  sounding : ∀ id playing, session.active.find? id = some playing →
    ∃ event, Event.lastTurn id recorded = some event ∧ playing.BeganWith event
  silent : ∀ id, session.active.find? id = none → Event.playing id recorded = false
  alternating : Event.Alternating recorded

theorem Mirrors.of_silence {session : Session α} (silence : session.active = []) :
    session.Mirrors [] where
  sounding id playing found := by simp [silence, Table.find?] at found
  silent _ _ := rfl
  alternating := by simp [Event.Alternating]

theorem Mirrors.congr {session other : Session α} {recorded : List (Event α)}
    (mirrors : session.Mirrors recorded)
    (same : ∀ id, other.active.find? id = session.active.find? id) : other.Mirrors recorded where
  sounding id playing found := mirrors.sounding id playing (same id ▸ found)
  silent id found := mirrors.silent id (same id ▸ found)
  alternating := mirrors.alternating

theorem Mirrors.isSome_iff {session : Session α} {recorded : List (Event α)}
    (mirrors : session.Mirrors recorded) (id : Int) :
    (session.active.find? id).isSome = true ↔
      ∃ event, Event.lastTurn id recorded = some event ∧ event.isPlay = true := by
  constructor
  · intro active
    obtain ⟨playing, found⟩ := Option.isSome_iff_exists.mp active
    obtain ⟨event, last, began⟩ := mirrors.sounding id playing found
    exact ⟨event, last, began.isPlay⟩
  · rintro ⟨event, last, plays⟩
    by_contra inactive
    have none := mirrors.silent id (by simpa using inactive)
    rw [Event.playing_eq_lastTurn, last, Option.any_some, plays] at none
    cases none

variable {session next : Session α} {recorded : List (Event α)}

theorem Mirrors.stopOne (mirrors : session.Mirrors recorded) (time fadeOut : α) (id : Int) :
    (Session.stopOne time fadeOut session id).Mirrors
      (recorded ++ [⟨id, time, .stop fadeOut⟩]) where
  sounding other playing found := by
    change (session.active.erase id).find? other = _ at found
    rw [Table.find?_erase] at found
    by_cases same : id = other
    · simp [same] at found
    · rw [if_neg same] at found
      rw [Event.lastTurn_concat, if_neg (fun both => same both.1)]
      exact mirrors.sounding other playing found
  silent other found := by
    change (session.active.erase id).find? other = _ at found
    rw [Table.find?_erase] at found
    rw [Event.playing_concat]
    by_cases same : id = other
    · simp [Event.holds, same]
    · rw [if_neg same] at found
      simpa [Event.holds, same] using mirrors.silent other found
  alternating := mirrors.alternating.concat fun plays => by cases plays

theorem Mirrors.stop (mirrors : session.Mirrors recorded) (time fadeOut : α) (targets : List Int) :
    ∃ added, (session.stop time fadeOut targets).timeline = session.timeline ++ added ∧
      (session.stop time fadeOut targets).Mirrors (recorded ++ added) := by
  unfold Session.stop
  induction targets generalizing session recorded with
  | nil => exact ⟨[], by simp, by simpa using mirrors⟩
  | cons id rest ih =>
    obtain ⟨added, timeline, later⟩ := ih (mirrors.stopOne time fadeOut id)
    refine ⟨⟨id, time, .stop fadeOut⟩ :: added, ?_, by simpa using later⟩
    rw [List.foldl_cons, timeline]
    exact List.append_assoc session.timeline [_] added

theorem Mirrors.startClip (mirrors : session.Mirrors recorded) {id : Int}
    (free : session.active.find? id = none) (time volume : α) (cue : Cue α) :
    ({ session with active := session.active.put id (cue.toPlaying time volume) } :
      Session α).Mirrors (recorded ++ [⟨id, time, .play cue.toClip⟩]) where
  sounding other playing found := by
    rw [Table.find?_put] at found
    rw [Event.lastTurn_concat]
    by_cases same : id = other
    · rw [if_pos same] at found
      rw [if_pos ⟨same, rfl⟩]
      obtain rfl := Option.some_inj.mp found
      exact ⟨_, rfl, rfl, cue.toClip, rfl, rfl, rfl, rfl, rfl, rfl⟩
    · rw [if_neg same] at found
      rw [if_neg (fun both => same both.1)]
      exact mirrors.sounding other playing found
  silent other found := by
    rw [Table.find?_put] at found
    rw [Event.playing_concat]
    by_cases same : id = other
    · simp [same] at found
    · rw [if_neg same] at found
      simpa [Event.holds, same] using mirrors.silent other found
  alternating := mirrors.alternating.concat fun _ => mirrors.silent id free

variable [Number α]

theorem Mirrors.setVolume (mirrors : session.Mirrors recorded) (time : α) (id : Int)
    (level ramp : α) :
    (session.setVolume time id level ramp).Mirrors (recorded ++
      [⟨id, time, .volume (some (.amount (bounded level))) (Number.larger 0 ramp)⟩]) := by
  have active : ∀ other, (session.setVolume time id level ramp).active.find? other =
      (session.active.find? other).map fun playing =>
        if id = other then { playing with volume := bounded level } else playing := by
    intro other
    unfold Session.setVolume
    dsimp only
    split
    · next playing found =>
      rw [Table.find?_put]
      by_cases same : id = other
      · rw [if_pos same, ← same, found]
        simp
      · simp [same]
    · next found =>
      by_cases same : id = other
      · simp [← same, found]
      · simp [same]
  refine ⟨fun other playing found => ?_, fun other found => ?_,
    mirrors.alternating.concat fun plays => by cases plays⟩
  · rw [Event.lastTurn_concat, if_neg (fun both => by cases both.2)]
    rw [active] at found
    obtain ⟨before, was, rfl⟩ := Option.map_eq_some_iff.mp found
    obtain ⟨event, last, began⟩ := mirrors.sounding other before was
    refine ⟨event, last, ?_⟩
    split
    · exact ⟨began.time, began.clip⟩
    · exact began
  · rw [active, Option.map_eq_none_iff] at found
    rw [Event.playing_concat]
    simpa [Event.holds] using mirrors.silent other found

theorem Mirrors.play (mirrors : session.Mirrors recorded) (least time : α) (id : Int)
    (cue : Cue α) :
    (session.play least time id cue).Mirrors
      (recorded ++ (session.giveWay least time id cue ++ [⟨id, time, .play cue.toClip⟩])) := by
  unfold giveWay
  cases found : session.active.find? id with
  | none =>
    exact (mirrors.startClip found time (session.channel id).volume cue).congr fun _ => rfl
  | some before =>
    have stopped := mirrors.stopOne time (crossfade least cue before) id
    have free : (session.active.erase id).find? id = none := by
      rw [Table.find?_erase, if_pos rfl]
    have started := stopped.startClip free time (session.channel id).volume cue
    rw [List.append_assoc] at started
    refine started.congr fun other => ?_
    change (session.active.put id _).find? other = ((session.active.erase id).put id _).find? other
    rw [Table.find?_put, Table.find?_put, Table.find?_erase]
    split <;> rfl

/-- Every step adds to the timeline what keeps the recording and the session in agreement. -/
theorem Mirrors.step {time : α} (mirrors : session.Mirrors recorded)
    (step : Step time session next) :
    ∃ added, next.timeline = session.timeline ++ added ∧ next.Mirrors (recorded ++ added) := by
  cases step with
  | idle => exact ⟨[], by simp, by simpa using mirrors⟩
  | play least id cue => exact ⟨_, rfl, mirrors.play least time id cue⟩
  | stop fadeOut targets => exact mirrors.stop time fadeOut targets
  | volume id level ramp => exact ⟨_, rfl, mirrors.setVolume time id level ramp⟩

/-- How a cue comes into a session at a time: alone on a free channel, else behind a stop of what
was playing there, with a fade at least as long as the new clip's, the old one's and the least.
Among lengths that cannot be compared none is longer than the fade. -/
structure ComesIn (before after : Session α) (least time : α) (id : Int) (cue : Cue α) : Prop where
  alone : before.active.find? id = none →
    after.timeline = before.timeline ++ [⟨id, time, .play cue.toClip⟩]
  instead : ∀ old, before.active.find? id = some old → ∃ fade,
    after.timeline =
        before.timeline ++ [⟨id, time, .stop fade⟩, ⟨id, time, .play cue.toClip⟩] ∧
      ∀ length ∈ [cue.fadeIn, old.fadeOut, least], ¬ fade < length ∧
        (cue.fadeIn ≤ cue.fadeIn → old.fadeOut ≤ old.fadeOut → length ≤ fade)

variable [LawfulNumber α]

theorem play_comesIn (session : Session α) {least : α} (leastSelf : least ≤ least) (time : α)
    (id : Int) (cue : Cue α) :
    session.ComesIn (session.play least time id cue) least time id cue where
  alone free := by simp [Session.play, giveWay, free, Session.record]
  instead old found := by
    refine ⟨crossfade least cue old, by simp [Session.play, giveWay, found, Session.record], ?_⟩
    have notLess : ∀ length ∈ [cue.fadeIn, old.fadeOut, least],
        ¬ crossfade least cue old < length := by
      have notLess_least := not_larger_lt_right (larger cue.fadeIn old.fadeOut) least
      have notLess_in := not_larger_lt_of_not_lt (not_larger_lt_left cue.fadeIn old.fadeOut) least
      have notLess_out := not_larger_lt_of_not_lt (not_larger_lt_right cue.fadeIn old.fadeOut) least
      simpa [crossfade] using ⟨notLess_in, notLess_out, notLess_least⟩
    refine fun length member => ⟨notLess length member, fun inSelf outSelf => ?_⟩
    have self : length ≤ length := by
      simp only [List.mem_cons, List.not_mem_nil, or_false] at member
      rcases member with rfl | rfl | rfl
      · exact inSelf
      · exact outSelf
      · exact leastSelf
    have fadeSelf : crossfade least cue old ≤ crossfade least cue old :=
      larger_self (larger_self inSelf outSelf) leastSelf
    exact le_of_not_lt fadeSelf self (notLess length member)

end Session

namespace Studio

/-- What counts as recorded after an operation: besides what was before it all that the timeline has
gained, unless by a configuration; and nothing after a reset. -/
def Operation.recorded (operation : Operation α) (before after : Session α)
    (events : List (Event α)) : List (Event α) :=
  match operation with
  | .configure .. => events
  | .reset => []
  | .move _ | .compile .. | .render .. => events ++ after.timeline.drop before.timeline.length

variable [Number α]

def take (studio : Studio α) (operations : List (α × Operation α)) : Studio α × List (Event α) :=
  operations.foldl (fun (studio, events) (clock, operation) =>
    let after := operation.after clock studio
    (after, operation.recorded studio.session after.session events)) (studio, [])

/-- No operation, done or failed, sets the session and the recording at odds. -/
theorem Operation.mirrors (operation : Operation α) (clock : α) {studio : Studio α}
    {recorded : List (Event α)} (mirrors : studio.session.Mirrors recorded) :
    (operation.after clock studio).session.Mirrors
      (operation.recorded studio.session (operation.after clock studio).session recorded) := by
  cases operation with
  | configure config base =>
    obtain ⟨events, configured⟩ := after_configure config base clock studio
    refine mirrors.congr fun id => ?_
    rw [configured, ← Session.configured_active studio.session config base]
    rfl
  | move made =>
    rw [after_move, Operation.recorded]
    cases isBegin : made.isBegin with
    | true =>
      obtain rfl := Move.eq_begin isBegin
      rw [begin_after]
      change (studio.session.begin clock).Mirrors
        (recorded ++ studio.session.timeline.drop studio.session.timeline.length)
      rw [List.drop_length, List.append_nil]
      exact mirrors.congr fun _ => rfl
    | false =>
      obtain ⟨added, timeline, agrees⟩ := mirrors.step (Move.step isBegin clock studio)
      rw [timeline, List.drop_left]
      exact agrees
  | compile video videoLength =>
    rw [after_compile, Operation.recorded, List.drop_length, List.append_nil]
    exact mirrors
  | render video output =>
    rw [after_render, Operation.recorded, List.drop_length, List.append_nil]
    exact mirrors
  | reset => exact .of_silence rfl

theorem take_mirrors (studio : Studio α) (silence : studio.session.active = [])
    (operations : List (α × Operation α)) :
    (studio.take operations).1.session.Mirrors (studio.take operations).2 := by
  have start : studio.session.Mirrors [] := .of_silence silence
  unfold take
  generalize ([] : List (Event α)) = recorded at start
  clear silence
  induction operations generalizing studio recorded with
  | nil => exact start
  | cons first rest ih =>
    obtain ⟨clock, operation⟩ := first
    exact ih _ _ (operation.mirrors clock start)

/-- After any operations, done or failed, a channel is taken to be playing just when a play was its
last recorded turn, and then what plays is the clip of that play. Between two recorded plays of a
channel there is a stop. A further play records itself, behind a stop if its channel was playing,
unless its file is not found or its length cannot be told. -/
theorem playing_mirrors_recorded [LawfulNumber α] (studio : Studio α)
    (operations : List (α × Operation α)) :
    let after := (({ studio with session := .new } : Studio α).take operations).1
    let recorded := (({ studio with session := .new } : Studio α).take operations).2
    (∀ id, (after.session.active.find? id).isSome = true ↔
        ∃ event, Event.lastTurn id recorded = some event ∧ event.isPlay = true) ∧
      (∀ id playing, after.session.active.find? id = some playing →
        ∃ event, Event.lastTurn id recorded = some event ∧ playing.BeganWith event) ∧
      (∀ before first between second later,
        recorded = before ++ first :: between ++ second :: later → first.isPlay = true →
        second.isPlay = true → first.channel = second.channel →
        ∃ stop ∈ between, stop.channel = second.channel ∧
          ∃ fadeOut, stop.action = .stop fadeOut) ∧
      ∀ (clock : α) (request : Request α),
        match ({ after with clock } : Studio α).cue request with
        | .ok cue => after.session.ComesIn
            ((Operation.move (.play request)).after clock after).session after.leastFade
            (after.session.timeAt clock) request.channel cue
        | .error failure =>
          (Operation.move (.play request)).answer clock after = .error failure ∧
            ((Operation.move (.play request)).after clock after).session = after.session := by
  intro after recorded
  have mirrors : after.session.Mirrors recorded :=
    take_mirrors { studio with session := .new } rfl operations
  refine ⟨mirrors.isSome_iff, mirrors.sounding, ?_, ?_⟩
  · intro before first between second later split firstPlays secondPlays same
    have alternating : Event.Alternating (before ++ first :: between ++ second :: later) :=
      split ▸ mirrors.alternating
    exact alternating.exists_stop firstPlays secondPlays same
  · intro clock request
    have played := play_session request { after with clock }
    rw [Operation.after_move]
    split
    · next cue cued =>
      rw [cued] at played
      change after.session.ComesIn ((play request).after { after with clock }).session _ _ _ _
      rw [played]
      exact Session.play_comesIn _ (LawfulNumber.ofInt_le le_rfl) _ _ _
    · next failure uncued =>
      rw [uncued] at played
      refine ⟨?_, played.2⟩
      change (play request >>= fun ms => pure (Answer.length ms)).result { after with clock } = _
      rw [Work.result_bind, played.1]

/-- A clip gives way to another one and its channel is then changed in volume. -/
theorem playing_mirrors_recorded_crossfading :
    let studio : Studio Rat :=
      { settings := {}, clock := 0, session := .new
        host := {
          facts := .catalogue [("a.wav", ⟨5000, none, none⟩), ("b.wav", ⟨700, none, none⟩)] } }
    let operations : List (Rat × Operation Rat) :=
      [(1, .move .begin),
        (2, .move (.play { file := "/m/a.wav", channel := 2, fadeIn := 0, fadeOut := 300 })),
        (4, .move (.play { file := "/m/b.wav", channel := 2, fadeIn := 100, fadeOut := 0 })),
        (5, .move (.volume 2 (1 / 2) 0))]
    ((studio.take operations).1.session.active.find? 2).isSome = true ∧
      ∃ event, Event.lastTurn 2 (studio.take operations).2 = some event ∧ event.isPlay = true := by
  intro studio operations
  have sounding : ((studio.take operations).1.session.active.find? 2).isSome = true := by
    cbv
  exact ⟨sounding, ((playing_mirrors_recorded studio operations).1 2).mp sounding⟩

end Studio

end Screencast
