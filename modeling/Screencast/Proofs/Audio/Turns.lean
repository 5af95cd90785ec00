import Screencast.Proofs.Audio.Parts
import Screencast.Proofs.Audio.Recording
import Screencast.Proofs.Number.Lawful

/-!
One sound at a time on each channel. However the moves of a recording follow one another, the
session leaves a stop between any two plays of a channel, and the events lie in order of time;
therefore a segment of the mix is over when the next play of its channel begins.
-/

namespace Screencast

variable {α : Type}

namespace Event

def isPlay (event : Event α) : Bool :=
  match event.action with
  | .play _ => true
  | _ => false

def holds (id : Int) (on : Bool) (event : Event α) : Bool :=
  if event.channel = id then
    match event.action with
    | .play _ => true
    | .stop _ => false
    | .volume _ _ => on
  else on

/-- Whether a channel is playing after some events, which is whether a play was the last among its
plays and stops. -/
def playing (id : Int) (events : List (Event α)) : Bool :=
  events.foldl (holds id) false

theorem holds_mono {id : Int} {on other : Bool} {event : Event α} (still : on = true → other = true)
    (held : holds id on event = true) : holds id other event = true := by
  unfold holds at held ⊢
  split
  · next same =>
    rw [if_pos same] at held
    cases action : event.action with
    | play clip => rfl
    | stop fadeOut => simp [action] at held
    | volume level ramp => exact still (by simpa [action] using held)
  · next differs =>
    rw [if_neg differs] at held
    exact still held

theorem playing_concat (id : Int) (events : List (Event α)) (event : Event α) :
    playing id (events ++ [event]) = holds id (playing id events) event := by
  simp [playing]

theorem foldl_holds {id : Int} {events : List (Event α)}
    (unstopped : ∀ event ∈ events, event.channel = id → ∀ fadeOut, event.action ≠ .stop fadeOut) :
    events.foldl (holds id) true = true := by
  induction events with
  | nil => rfl
  | cons event later ih =>
    have still : holds id true event = true := by
      unfold holds
      split
      · next same =>
        cases action : event.action with
        | stop fadeOut => exact absurd action (unstopped event (by simp) same fadeOut)
        | play clip => rfl
        | volume level ramp => rfl
      · rfl
    rw [List.foldl_cons, still]
    exact ih fun other member => unstopped other (List.mem_cons_of_mem _ member)

def Alternating (events : List (Event α)) : Prop :=
  ∀ before event later, events = before ++ event :: later → event.isPlay = true →
    playing event.channel before = false

theorem Alternating.concat {events : List (Event α)} (alternating : Alternating events)
    {event : Event α} (free : event.isPlay = true → playing event.channel events = false) :
    Alternating (events ++ [event]) := by
  intro before other later same isPlay
  rcases List.eq_nil_or_concat later with rfl | ⟨earlier, last, rfl⟩
  · obtain ⟨rfl, sameLast⟩ := List.append_inj' same rfl
    obtain rfl := List.singleton_inj.mp sameLast
    exact free isPlay
  · have shifted : events ++ [event] = (before ++ other :: earlier) ++ [last] := by
      simpa using same
    exact alternating before other earlier (List.append_inj' shifted rfl).1 isPlay

/-- Between two plays of a channel there is a stop. -/
theorem Alternating.exists_stop {before between later : List (Event α)} {first second : Event α}
    (alternating : Alternating (before ++ first :: between ++ second :: later))
    (firstPlays : first.isPlay = true) (secondPlays : second.isPlay = true)
    (same : first.channel = second.channel) :
    ∃ stop ∈ between, stop.channel = second.channel ∧ ∃ fadeOut, stop.action = .stop fadeOut := by
  by_contra none
  have silent := alternating (before ++ first :: between) second later (by simp) secondPlays
  have started : holds second.channel (playing second.channel before) first = true := by
    cases action : first.action with
    | play clip => simp [holds, same, action]
    | stop fadeOut => simp [isPlay, action] at firstPlays
    | volume level ramp => simp [isPlay, action] at firstPlays
  have still : playing second.channel (before ++ first :: between) = true := by
    unfold playing at started ⊢
    rw [List.foldl_append, List.foldl_cons, started]
    exact foldl_holds fun event member onChannel fadeOut stops =>
      none ⟨event, member, onChannel, fadeOut, stops⟩
  rw [still] at silent
  cases silent

end Event

variable [Number α]

namespace Session

/-- What every recorded session keeps: by a time its events have come in order, and no channel plays
but those that it knows of. -/
structure InTurn (session : Session α) (time : α) : Prop where
  ordered : session.timeline.Pairwise fun earlier later => earlier.time ≤ later.time
  nonneg : ∀ event ∈ session.timeline, 0 ≤ event.time
  past : ∀ event ∈ session.timeline, event.time ≤ time
  alternating : Event.Alternating session.timeline
  active : ∀ id, Event.playing id session.timeline = true → (session.active.find? id).isSome = true

theorem InTurn.of_empty {session : Session α} (empty : session.timeline = []) (time : α) :
    session.InTurn time where
  ordered := by simp [empty]
  nonneg := by simp [empty]
  past := by simp [empty]
  alternating := by simp [empty, Event.Alternating]
  active := by simp [empty, Event.playing]

variable [LawfulNumber α] {session next : Session α} {time later clock : α}

theorem InTurn.mono (turn : session.InTurn time) (le : time ≤ later) : session.InTurn later :=
  { turn with past := fun event member => LawfulNumber.le_trans (turn.past event member) le }

theorem InTurn.record (turn : session.InTurn time) (nonneg : 0 ≤ time) {event : Event α}
    (now : event.time = time)
    (free : event.isPlay = true → Event.playing event.channel session.timeline = false)
    {channels : Channels α} {volumes : Table Int α} {active : Table Int (Playing α)}
    (known : ∀ id, Event.holds id (session.active.find? id).isSome event = true →
      (active.find? id).isSome = true) :
    ({ session.record [event] with channels, volumes, active } : Session α).InTurn time where
  ordered := by
    refine List.pairwise_append.mpr ⟨turn.ordered, List.pairwise_singleton .., ?_⟩
    intro earlier member last isLast
    rw [List.mem_singleton.mp isLast, now]
    exact turn.past earlier member
  nonneg := by
    intro other member
    rcases List.mem_append.mp member with old | new
    · exact turn.nonneg other old
    · rw [List.mem_singleton.mp new, now]
      exact nonneg
  past := by
    intro other member
    rcases List.mem_append.mp member with old | new
    · exact turn.past other old
    · rw [List.mem_singleton.mp new, now]
      exact LawfulNumber.self_le_right nonneg
  alternating := turn.alternating.concat free
  active := by
    intro id playing
    have held : Event.holds id (Event.playing id session.timeline) event = true := by
      rw [← Event.playing_concat]
      exact playing
    exact known id (Event.holds_mono (turn.active id) held)

theorem InTurn.stopOne (turn : session.InTurn time) (nonneg : 0 ≤ time) (fadeOut : α) (id : Int) :
    (Session.stopOne time fadeOut session id).InTurn time := by
  refine turn.record nonneg rfl (fun plays => ?_) fun other held => ?_
  · cases plays
  · rw [Table.find?_erase]
    by_cases same : id = other
    · simp [Event.holds, same] at held
    · simpa [Event.holds, same] using held

theorem InTurn.stop (turn : session.InTurn time) (nonneg : 0 ≤ time) (fadeOut : α)
    (targets : List Int) : (session.stop time fadeOut targets).InTurn time := by
  unfold Session.stop
  induction targets generalizing session with
  | nil => exact turn
  | cons id rest ih => exact ih (turn.stopOne nonneg fadeOut id)

theorem InTurn.volume (turn : session.InTurn time) (nonneg : 0 ≤ time) (id : Int)
    (level ramp : α) : (session.setVolume time id level ramp).InTurn time := by
  refine turn.record nonneg rfl (fun plays => ?_) fun other held => ?_
  · cases plays
  · have before : (session.active.find? other).isSome = true := by
      simpa [Event.holds] using held
    split
    · rw [Table.find?_put]
      split
      · rfl
      · exact before
    · exact before

theorem InTurn.startClip (turn : session.InTurn time) (nonneg : 0 ≤ time) {id : Int}
    (free : Event.playing id session.timeline = false) (clip : Clip α) (playing : Playing α)
    {active : Table Int (Playing α)}
    (others : ∀ other, id ≠ other → active.find? other = session.active.find? other) :
    ({ session.record [⟨id, time, .play clip⟩] with active := active.put id playing } :
      Session α).InTurn time := by
  refine turn.record nonneg rfl (fun _ => free) fun other held => ?_
  rw [Table.find?_put]
  by_cases same : id = other
  · simp [same]
  · rw [if_neg same, others other same]
    simpa [Event.holds, same] using held

theorem InTurn.play (turn : session.InTurn time) (nonneg : 0 ≤ time) (least : α) (id : Int)
    (cue : Cue α) : (session.play least time id cue).InTurn time := by
  cases found : session.active.find? id with
  | none =>
    have free : Event.playing id session.timeline = false := by
      by_contra playing
      simpa [found] using turn.active id (by simpa using playing)
    have started := turn.startClip nonneg free cue.toClip
      (cue.toPlaying time (session.channel id).volume) fun _ _ => rfl
    simpa [Session.play, giveWay, found] using started
  | some before =>
    have stopped := turn.stopOne nonneg (crossfade least cue before) id
    have free : Event.playing id
        (Session.stopOne time (crossfade least cue before) session id).timeline = false := by
      simp [Session.stopOne, Session.record, Event.playing_concat, Event.holds]
    have started := stopped.startClip nonneg free cue.toClip
      (cue.toPlaying time (session.channel id).volume)
      fun other differs => (Table.find?_erase id other _ ▸ (if_neg differs).symm :)
    simpa [Session.play, giveWay, found, Session.stopOne, Session.record] using started

/-- Every step keeps a session in turn. -/
theorem InTurn.step (turn : session.InTurn time) (nonneg : 0 ≤ time)
    (step : Step time session next) : next.InTurn time := by
  cases step with
  | idle => exact turn
  | play least id cue => exact turn.play nonneg least id cue
  | stop fadeOut targets => exact turn.stop nonneg fadeOut targets
  | volume id level ramp => exact turn.volume nonneg id level ramp

/-- Whether the clock may show a reading: the recording, if it has begun, did so before, and what
was recorded lies in the past. -/
structure ReadyAt (session : Session α) (clock : α) : Prop where
  begun : ∀ start, session.start = some start → Number.isFinite start = true ∧ start ≤ clock
  turn : session.InTurn (session.timeAt clock)

private theorem thousand_finite : Number.isFinite (1000 : α) = true :=
  LawfulNumber.isFinite_ofInt (by decide)

private theorem thousand_pos : (0 : α) < 1000 :=
  LawfulNumber.ofInt_pos (by decide)

theorem timeAt_nonneg (begun : ∀ start, session.start = some start →
    Number.isFinite start = true ∧ start ≤ clock) : 0 ≤ session.timeAt clock := by
  unfold timeAt
  cases isStart : session.start with
  | none => exact Number.zero_le_zero
  | some start =>
    obtain ⟨finite, le⟩ := begun start isStart
    exact LawfulNumber.mul_nonneg thousand_finite thousand_pos
      (LawfulNumber.sub_nonneg finite le)

theorem timeAt_le {reading : α} (begun : ∀ start, session.start = some start →
    Number.isFinite start = true ∧ start ≤ clock) (le : clock ≤ reading) :
    session.timeAt clock ≤ session.timeAt reading := by
  unfold timeAt
  cases isStart : session.start with
  | none => exact Number.zero_le_zero
  | some start =>
    exact LawfulNumber.mul_le_mul thousand_finite thousand_pos
      (LawfulNumber.sub_le_sub (begun start isStart).1 le)

theorem ReadyAt.timeAt_nonneg (ready : session.ReadyAt clock) : 0 ≤ session.timeAt clock :=
  Session.timeAt_nonneg ready.begun

theorem ReadyAt.mono {reading : α} (ready : session.ReadyAt clock) (le : clock ≤ reading) :
    session.ReadyAt reading where
  begun start begun := by
    obtain ⟨finite, before⟩ := ready.begun start begun
    exact ⟨finite, LawfulNumber.le_trans before le⟩
  turn := ready.turn.mono (timeAt_le ready.begun le)

theorem ReadyAt.step (ready : session.ReadyAt clock)
    (step : Step (session.timeAt clock) session next) : next.ReadyAt clock where
  begun start begun := ready.begun start (step.start_eq ▸ begun)
  turn := by
    have same : next.timeAt clock = session.timeAt clock := by
      unfold timeAt
      rw [step.start_eq]
    rw [same]
    exact ready.turn.step ready.timeAt_nonneg step

theorem ReadyAt.begin (ready : session.ReadyAt clock) (fresh : session.start = none)
    (finite : Number.isFinite clock = true) : (session.begin clock).ReadyAt clock := by
  have begun : ∀ start, (session.begin clock).start = some start →
      Number.isFinite start = true ∧ start ≤ clock := by
    intro start isStart
    obtain rfl : clock = start := Option.some_inj.mp isStart
    exact ⟨finite, LawfulNumber.self_le finite⟩
  refine ⟨begun, ?_⟩
  have zero : session.timeAt clock = 0 := by simp [timeAt, fresh]
  have later : (0 : α) ≤ (session.begin clock).timeAt clock := Session.timeAt_nonneg begun
  have turn := ready.turn.mono (zero ▸ later)
  exact { turn with }

end Session

namespace Studio

variable [LawfulNumber α] {reading : α} {studio : Studio α}

/-- Every move leaves a session in turn, if the recording is not begun twice. -/
theorem Move.readyAt {move : Move α} (ready : studio.session.ReadyAt reading)
    (finite : Number.isFinite reading = true)
    (fresh : move.isBegin = true → studio.session.start = none) :
    (move.after reading studio).session.ReadyAt reading := by
  cases isBegin : move.isBegin with
  | true =>
    obtain rfl := Move.eq_begin isBegin
    rw [begin_after]
    exact ready.begin (fresh isBegin) finite
  | false => exact ready.step (Move.step isBegin reading studio)

/-- At the end of a run of moves the session is in turn. -/
theorem run_inTurn {moves : List (α × Move α)}
    (finite : ∀ move ∈ moves, Number.isFinite move.1 = true)
    (forward : (moves.map (·.1)).Pairwise (· ≤ ·)) (once : studio.begins moves ≤ 1)
    (ready : ∀ move ∈ moves, studio.session.ReadyAt move.1)
    (turn : ∃ time, studio.session.InTurn time) :
    ∃ time, (studio.run moves).session.InTurn time := by
  induction moves generalizing studio with
  | nil => exact turn
  | cons first rest ih =>
    obtain ⟨reading, move⟩ := first
    obtain ⟨before, forwardRest⟩ := List.pairwise_cons.mp forward
    obtain ⟨fresh, onceRest⟩ := begins_after once
    have moved : (move.after reading studio).session.ReadyAt reading :=
      Move.readyAt (ready (reading, move) (by simp)) (finite (reading, move) (by simp)) fresh
    refine ih (fun move member => finite move (List.mem_cons_of_mem _ member)) forwardRest onceRest
      (fun move member => moved.mono (before _ (List.mem_map_of_mem member))) ⟨_, moved.turn⟩

theorem run_inTurn_of_new {moves : List (α × Move α)} (undeclared : studio.session.timeline = [])
    (unbegun : studio.session.start = none)
    (finite : ∀ move ∈ moves, Number.isFinite move.1 = true)
    (forward : (moves.map (·.1)).Pairwise (· ≤ ·)) (once : moves.countP (·.2.isBegin) ≤ 1) :
    ∃ time, (studio.run moves).session.InTurn time := by
  have begins : studio.begins moves ≤ 1 := by
    simpa [Studio.begins, unbegun] using once
  have ready : ∀ move ∈ moves, studio.session.ReadyAt move.1 := fun move _ =>
    ⟨fun start begun => by simp [unbegun] at begun, .of_empty undeclared _⟩
  exact run_inTurn finite forward begins ready ⟨0, .of_empty undeclared 0⟩

end Studio

end Screencast
