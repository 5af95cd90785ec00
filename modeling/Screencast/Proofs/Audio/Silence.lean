import Screencast.Proofs.Audio.Handover
import Screencast.Proofs.Audio.Likeness

/-!
What a stop of all channels silences. It is recorded for each channel that is playing, and whatever
a recording played leaves its channel playing until a stop of it is recorded. So nothing of it is
heard any more. A clip that a configuration declared is silenced only by what is played over it.
-/

namespace Screencast

open Number

variable {α : Type}

def Event.StopsOn (id : Int) (event : Event α) : Prop :=
  event.channel = id ∧ ∃ fadeOut, event.action = .stop fadeOut

theorem Event.stopsOn_of_stopsFrom [Number α] {event : Event α} {time finish fadeOut : α}
    (stops : event.stopsFrom time = some (finish, fadeOut)) :
    event.StopsOn event.channel ∧ time ≤ event.time := by
  unfold Event.stopsFrom at stops
  split at stops
  · next fade action =>
    split at stops
    · next late => exact ⟨⟨rfl, fade, action⟩, late⟩
    · cases stops
  · cases stops

theorem Event.of_first_stop [Number α] {events : List (Event α)} {id : Int}
    {time finish fadeOut : α} (found : (events.filter (·.channel == id)).findSome?
      (Event.stopsFrom time) = some (finish, fadeOut)) :
    ∃ first ∈ events, first.StopsOn id ∧ time ≤ first.time ∧ first.time = finish := by
  obtain ⟨first, inChannel, isStop⟩ := List.exists_of_findSome?_eq_some found
  obtain ⟨among, onChannel⟩ := List.mem_filter.mp inChannel
  obtain ⟨stops, late⟩ := Event.stopsOn_of_stopsFrom isStop
  obtain rfl : first.channel = id := by simpa using onChannel
  exact ⟨first, among, stops, late, Event.time_of_stopsFrom isStop⟩

theorem Event.not_stopsOn_of_none [Number α] {events : List (Event α)} {id : Int} {time : α}
    (found : (events.filter (·.channel == id)).findSome? (Event.stopsFrom time) = none)
    {stop : Event α} (member : stop ∈ events) (late : time ≤ stop.time) : ¬ stop.StopsOn id := by
  rintro ⟨onChannel, fadeOut, action⟩
  have among : stop ∈ events.filter (·.channel == id) :=
    List.mem_filter.mpr ⟨member, by simpa using onChannel⟩
  have isFound := Event.isSome_findSome?_stopsFrom.mpr ⟨stop, among, late, fadeOut, action⟩
  rw [found] at isFound
  cases isFound

theorem exists_split_between {β : Type} {front middle back before after : List β} {x : β}
    (split : front ++ middle ++ back = before ++ x :: after) (from_ : front.length ≤ before.length)
    (until_ : before.length < (front ++ middle).length) :
    ∃ first rest, middle = first ++ x :: rest ∧ after = rest ++ back := by
  rw [List.append_assoc] at split
  obtain ⟨first, rfl⟩ : front <+: before :=
    List.prefix_of_prefix_length_le (split ▸ List.prefix_append ..) (List.prefix_append before _)
      from_
  rw [List.append_assoc, List.append_cancel_left_eq] at split
  have inMiddle : (first ++ [x]).length ≤ middle.length := by
    simp only [List.length_append, List.length_singleton] at until_ ⊢
    omega
  have inWhole : first ++ [x] <+: middle ++ back := ⟨after, by simpa using split.symm⟩
  obtain ⟨rest, rfl⟩ : first ++ [x] <+: middle :=
    List.prefix_of_prefix_length_le inWhole (List.prefix_append ..) inMiddle
  refine ⟨first, rest, by simp, ?_⟩
  simpa using split.symm

namespace Session

/-- What a session becomes as events are added to its timeline: the stops among them come between
two times, and a channel that was playing goes on or is stopped. -/
structure Grows [LE α] (session next : Session α) (earliest latest : α) (added : List (Event α)) :
    Prop where
  timeline : next.timeline = session.timeline ++ added
  stops : ∀ event ∈ added, ∀ id, event.StopsOn id → earliest ≤ event.time ∧ event.time ≤ latest
  active : ∀ id, (session.active.find? id).isSome = true →
    (next.active.find? id).isSome = true ∨ ∃ stop ∈ added, stop.StopsOn id

theorem stop_timeline (session : Session α) (time fadeOut : α) (targets : List Int) :
    (session.stop time fadeOut targets).timeline =
      session.timeline ++ targets.map fun id => ⟨id, time, .stop fadeOut⟩ := by
  unfold Session.stop
  induction targets generalizing session with
  | nil => exact (List.append_nil _).symm
  | cons id rest ih =>
    rw [List.foldl_cons, ih, List.map_cons]
    exact List.append_assoc session.timeline [_] _

theorem stop_active (session : Session α) (time fadeOut : α) (targets : List Int) (id : Int) :
    (session.stop time fadeOut targets).active.find? id =
      if id ∈ targets then none else session.active.find? id := by
  unfold Session.stop
  induction targets generalizing session with
  | nil => simp
  | cons target rest ih =>
    rw [List.foldl_cons, ih]
    change (if id ∈ rest then none else (session.active.erase target).find? id) = _
    rw [Table.find?_erase]
    by_cases same : target = id
    · simp [same]
    · simp [same, Ne.symm same]

variable [Number α] {session next last : Session α} {time earliest latest : α}
  {added : List (Event α)}

theorem Grows.of_unstopped (timeline : next.timeline = session.timeline ++ added)
    (unstopped : ∀ event ∈ added, ∀ id, ¬ event.StopsOn id)
    (active : ∀ id, (session.active.find? id).isSome = true →
      (next.active.find? id).isSome = true) : session.Grows next earliest latest added where
  timeline := timeline
  stops event member id stops := absurd stops (unstopped event member id)
  active id playing := .inl (active id playing)

theorem Grows.of_unchanged (timeline : next.timeline = session.timeline)
    (active : next.active = session.active) : session.Grows next earliest latest [] :=
  .of_unstopped (by rw [timeline, List.append_nil]) (by simp) fun _ playing => active ▸ playing

variable [LawfulNumber α]

theorem Grows.widen (growth : session.Grows next earliest latest added) {lower upper : α}
    (below : lower ≤ earliest) (above : latest ≤ upper) : session.Grows next lower upper added :=
  { growth with
    stops := fun event member id stops =>
      ⟨LawfulNumber.le_trans below (growth.stops event member id stops).1,
        LawfulNumber.le_trans (growth.stops event member id stops).2 above⟩ }

omit [LawfulNumber α] in
theorem Grows.trans {addedToo : List (Event α)} (first : session.Grows next earliest latest added)
    (second : next.Grows last earliest latest addedToo) :
    session.Grows last earliest latest (added ++ addedToo) where
  timeline := by rw [second.timeline, first.timeline, List.append_assoc]
  stops event member id stops :=
    (List.mem_append.mp member).elim (first.stops event · id stops) (second.stops event · id stops)
  active id playing := by
    rcases first.active id playing with still | ⟨stop, member, stops⟩
    · exact (second.active id still).imp_right fun ⟨stop, member, stops⟩ =>
        ⟨stop, List.mem_append_right _ member, stops⟩
    · exact .inr ⟨stop, List.mem_append_left _ member, stops⟩

omit [LawfulNumber α] in
/-- In a step stops come at its time, and so do plays, each of which leaves its channel playing. -/
theorem Step.grows (known : time ≤ time) (step : Step time session next) :
    ∃ added, session.Grows next time time added ∧ ∀ event ∈ added, event.isPlay = true →
      event.time = time ∧ (next.active.find? event.channel).isSome = true := by
  cases step with
  | idle => exact ⟨[], .of_unchanged rfl rfl, by simp⟩
  | play least id cue =>
    have stays : ∀ other, other = id ∨ (session.active.find? other).isSome = true →
        ((session.play least time id cue).active.find? other).isSome = true := by
      intro other either
      change ((session.active.put id _).find? other).isSome = true
      rw [Table.find?_put]
      split
      · rfl
      · next differs => exact either.resolve_left (Ne.symm differs)
    have now : ∀ event ∈ session.giveWay least time id cue ++ [⟨id, time, .play cue.toClip⟩],
        event.time = time ∧ event.channel = id := by
      intro event member
      rcases List.mem_append.mp member with gives | plays
      · unfold giveWay at gives
        split at gives
        · exact List.mem_singleton.mp gives ▸ ⟨rfl, rfl⟩
        · cases gives
      · exact List.mem_singleton.mp plays ▸ ⟨rfl, rfl⟩
    refine ⟨_, ⟨rfl, fun event member _ _ => ?_, fun other playing =>
      .inl (stays other (.inr playing))⟩, fun event member _ => ?_⟩
    · rw [(now event member).1]
      exact ⟨known, known⟩
    · exact ⟨(now event member).1, stays _ (.inl (now event member).2)⟩
  | stop fadeOut targets =>
    refine ⟨_, ⟨stop_timeline .., ?_, fun id playing => ?_⟩, ?_⟩
    · intro event member id stops
      obtain ⟨target, _, rfl⟩ := List.mem_map.mp member
      exact ⟨known, known⟩
    · rw [stop_active]
      split
      · next target => exact .inr ⟨_, List.mem_map_of_mem target, rfl, fadeOut, rfl⟩
      · exact .inl playing
    · intro event member plays
      obtain ⟨target, _, rfl⟩ := List.mem_map.mp member
      cases plays
  | volume id level ramp =>
    refine ⟨[_], .of_unstopped rfl ?_ fun other playing => ?_, ?_⟩
    · intro event member other stops
      rw [List.mem_singleton.mp member] at stops
      obtain ⟨_, _, isStop⟩ := stops
      cases isStop
    · unfold Session.setVolume
      dsimp only
      split
      · rw [Table.find?_put]
        split
        · rfl
        · exact playing
      · exact playing
    · intro event member plays
      rw [List.mem_singleton.mp member] at plays
      cases plays

section AllStopped

variable {before between final : Session α} {start now fade : α} {more : List (Event α)}
  (made : before.Grows between start start added) (rest : between.Grows final start now more)
  {earlier later : List (Event α)} {event : Event α}
  (split : final.timeline ++ final.active.keys.map (fun id => ⟨id, now, .stop fade⟩) =
    earlier ++ event :: later)
  (since : before.timeline.length ≤ earlier.length)
  (inTime : earlier.length < between.timeline.length)
include made rest split since inTime

omit [LawfulNumber α] in
theorem Grows.later_eq : ∃ front behind, added = front ++ event :: behind ∧
    later = behind ++ (more ++ final.active.keys.map fun id => ⟨id, now, .stop fade⟩) := by
  rw [rest.timeline, List.append_assoc, made.timeline] at split
  rw [made.timeline] at inTime
  exact exists_split_between split since inTime

theorem Grows.stops_past (le : start ≤ now) {stop : Event α} (member : stop ∈ later) {id : Int}
    (stops : stop.StopsOn id) : stop.time ≤ now := by
  obtain ⟨front, behind, isAdded, rfl⟩ := made.later_eq rest split since inTime
  rcases List.mem_append.mp member with near | far
  · have within : stop ∈ added := by simp [isAdded, near]
    exact LawfulNumber.le_trans (made.stops stop within id stops).2 le
  rcases List.mem_append.mp far with between | last
  · exact (rest.stops stop between id stops).2
  · obtain ⟨channel, _, rfl⟩ := List.mem_map.mp last
    exact LawfulNumber.self_le_right le

omit [LawfulNumber α] in
/-- A play that has left its channel playing is followed by a stop of the channel, on its own or
with all others. -/
theorem Grows.exists_stop
    (played : event ∈ added → event.time = start ∧
      (between.active.find? event.channel).isSome = true) (past : event.time ≤ now) :
    ∃ stop ∈ later, stop.StopsOn event.channel ∧ event.time ≤ stop.time := by
  obtain ⟨front, behind, isAdded, rfl⟩ := made.later_eq rest split since inTime
  obtain ⟨atStart, playing⟩ := played (by simp [isAdded])
  -- Its channel is still playing at the end, or a stop of it has come in between.
  rcases rest.active _ playing with active | ⟨stop, member, stops⟩
  · have key : event.channel ∈ final.active.keys := by
      by_contra absent
      rw [Table.find?_eq_none absent] at active
      cases active
    have last : (⟨event.channel, now, .stop fade⟩ : Event α) ∈
        final.active.keys.map fun id => ⟨id, now, .stop fade⟩ := List.mem_map_of_mem key
    exact ⟨_, List.mem_append_right _ (List.mem_append_right _ last), ⟨rfl, fade, rfl⟩, past⟩
  · exact ⟨stop, by simp [member], stops, atStart ▸ (rest.stops stop member _ stops).1⟩

end AllStopped

def BegunBy (session : Session α) (clock : α) : Prop :=
  ∀ start, session.start = some start → isFinite start = true ∧ start ≤ clock

theorem BegunBy.mono {clock reading : α} (begun : session.BegunBy clock) (le : clock ≤ reading) :
    session.BegunBy reading := fun start isStart =>
  ⟨(begun start isStart).1, LawfulNumber.le_trans (begun start isStart).2 le⟩

end Session

namespace Studio

namespace Operation

def isBegin : Operation α → Bool
  | move made => made.isBegin
  | _ => false

def isPlay : Operation α → Bool
  | move (.play _) => true
  | _ => false

def isReset : Operation α → Bool
  | reset => true
  | _ => false

variable [Number α] {operation : Operation α} {clock reading : α} {studio : Studio α}

theorem start_after (operation : Operation α) (clock : α) (studio : Studio α) :
    (operation.isReset = true ∧ (operation.after clock studio).session.start = none) ∨
      (operation.isBegin = true ∧ (operation.after clock studio).session.start = some clock) ∨
      (operation.after clock studio).session.start = studio.session.start := by
  cases operation with
  | configure config base =>
    obtain ⟨events, configured⟩ := after_configure config base clock studio
    refine .inr (.inr ?_)
    rw [configured]
    exact Session.configured_preserves (·.start = studio.session.start) (fun _ => id)
      (fun _ => id) rfl config base
  | move made =>
    rw [after_move]
    cases isBegin : made.isBegin with
    | true =>
      obtain rfl := Move.eq_begin isBegin
      exact .inr (.inl ⟨rfl, rfl⟩)
    | false => exact .inr (.inr (Move.step isBegin clock studio).start_eq)
  | compile video videoLength => exact .inr (.inr (by rw [after_compile]))
  | render video output => exact .inr (.inr (by rw [after_render]))
  | reset => exact .inl ⟨rfl, rfl⟩

variable [LawfulNumber α]

theorem begunBy (operation : Operation α) (finite : isFinite clock = true)
    (begun : studio.session.BegunBy reading) (le : reading ≤ clock) :
    (operation.after clock studio).session.BegunBy clock := by
  intro start isStart
  rcases start_after operation clock studio with ⟨_, none⟩ | ⟨_, now⟩ | same
  · rw [none] at isStart
    cases isStart
  · obtain rfl := Option.some.inj (now.symm.trans isStart)
    exact ⟨finite, LawfulNumber.self_le finite⟩
  · exact begun.mono le start (same ▸ isStart)

theorem timeAt_le (finite : isFinite clock = true) (begun : studio.session.BegunBy reading)
    (le : reading ≤ clock) (fresh : operation.isBegin = true → studio.session.start = none)
    (kept : operation.isReset = false) :
    studio.session.timeAt reading ≤ (operation.after clock studio).session.timeAt clock := by
  rcases start_after operation clock studio with ⟨isReset, _⟩ | ⟨isBegin, _⟩ | same
  · rw [kept] at isReset
    cases isReset
  · have off : studio.session.timeAt reading = 0 := by
      rw [Session.timeAt, fresh isBegin]
    rw [off]
    exact Session.timeAt_nonneg (operation.begunBy finite begun le)
  · have goesOn := Session.timeAt_le begun le
    unfold Session.timeAt at goesOn ⊢
    rwa [same]

/-- Every operation but a reset lets the session grow at its time. The plays among what a play
records come at that time, and leave their channel playing. -/
theorem grows (finite : isFinite clock = true) (begun : studio.session.BegunBy reading)
    (le : reading ≤ clock) (kept : operation.isReset = false) :
    ∃ added, studio.session.Grows (operation.after clock studio).session
        ((operation.after clock studio).session.timeAt clock)
        ((operation.after clock studio).session.timeAt clock) added ∧
      (operation.isPlay = true → ∀ event ∈ added, event.isPlay = true →
        event.time = (operation.after clock studio).session.timeAt clock ∧
          ((operation.after clock studio).session.active.find? event.channel).isSome = true) := by
  have known : (operation.after clock studio).session.timeAt clock ≤
      (operation.after clock studio).session.timeAt clock :=
    LawfulNumber.self_le_right (Session.timeAt_nonneg (operation.begunBy finite begun le))
  cases operation with
  | configure config base =>
    obtain ⟨events, plays, configured⟩ := after_configure_plays config base clock studio
    have timeline := Session.configured_preserves (·.timeline = studio.session.timeline)
      (fun _ => id) (fun _ => id) rfl config base
    -- A configuration records plays and no stops, and what was playing plays on.
    refine ⟨events, .of_unstopped ?_ ?_ fun id playing => ?_, fun isPlay => by cases isPlay⟩
    · rw [configured, Session.record, timeline]
    · rintro event member id ⟨_, fadeOut, isStop⟩
      obtain ⟨clip, isPlay⟩ := plays event member
      rw [isPlay] at isStop
      cases isStop
    · rw [configured]
      exact (Session.configured_active studio.session config base).symm ▸ playing
  | move made =>
    rw [after_move] at known ⊢
    cases isBegin : made.isBegin with
    | true =>
      obtain rfl := Move.eq_begin isBegin
      exact ⟨[], .of_unchanged rfl rfl, by simp⟩
    | false =>
      have step := Move.step isBegin clock studio
      have same : (made.after clock studio).session.timeAt clock = studio.session.timeAt clock := by
        rw [Session.timeAt, step.start_eq]
        rfl
      rw [same] at known ⊢
      obtain ⟨added, growth, plays⟩ := step.grows known
      exact ⟨added, growth, fun _ => plays⟩
  | compile video videoLength =>
    rw [after_compile]
    exact ⟨[], .of_unchanged rfl rfl, by simp⟩
  | render video output =>
    rw [after_render]
    exact ⟨[], .of_unchanged rfl rfl, by simp⟩
  | reset => cases kept

end Operation

/-- Whether the recording is never begun again while it is on. -/
def BeginsFresh [Number α] (studio : Studio α) : List (α × Operation α) → Prop
  | [] => True
  | (clock, operation) :: rest =>
    (operation.isBegin = true → studio.session.start = none) ∧
      (operation.after clock studio).BeginsFresh rest

variable [Number α] [LawfulNumber α]

theorem perform_begunBy {studio : Studio α} {operations : List (α × Operation α)} {clock : α}
    (finite : ∀ operation ∈ operations, isFinite operation.1 = true)
    (forward : (operations.map (·.1) ++ [clock]).Pairwise (· ≤ ·))
    (begun : ∀ reading ∈ operations.map (·.1) ++ [clock], studio.session.BegunBy reading) :
    (studio.perform operations).session.BegunBy clock := by
  induction operations generalizing studio with
  | nil => exact begun clock (by simp)
  | cons first rest ih =>
    obtain ⟨reading, operation⟩ := first
    obtain ⟨before, forwardRest⟩ := List.pairwise_cons.mp forward
    have known : isFinite reading = true := finite _ (List.mem_cons_self ..)
    have now := operation.begunBy known (begun reading (by simp)) (LawfulNumber.self_le known)
    exact ih (fun operation member => finite operation (List.mem_cons_of_mem _ member))
      forwardRest fun later member => now.mono (before later member)

/-- A run without a reset lets the session grow from the time before it to the one after it. -/
theorem perform_grows {studio : Studio α} {operations : List (α × Operation α)} {reading clock : α}
    (begun : studio.session.BegunBy reading)
    (finite : ∀ operation ∈ operations, isFinite operation.1 = true)
    (forward : (reading :: (operations.map (·.1) ++ [clock])).Pairwise (· ≤ ·))
    (fresh : studio.BeginsFresh operations)
    (kept : ∀ operation ∈ operations, operation.2.isReset = false) :
    studio.session.timeAt reading ≤ (studio.perform operations).session.timeAt clock ∧
      ∃ added, studio.session.Grows (studio.perform operations).session
        (studio.session.timeAt reading) ((studio.perform operations).session.timeAt clock)
        added := by
  obtain ⟨later, forwardRest⟩ := List.pairwise_cons.mp forward
  induction operations generalizing studio reading with
  | nil =>
    exact ⟨Session.timeAt_le begun (later clock (by simp)), [], .of_unchanged rfl rfl⟩
  | cons first rest ih =>
    obtain ⟨now, operation⟩ := first
    obtain ⟨freshNow, freshRest⟩ := fresh
    have known : isFinite now = true := finite _ (List.mem_cons_self ..)
    have le : reading ≤ now := later now (by simp)
    have keptNow : operation.isReset = false := kept _ (List.mem_cons_self ..)
    have begins := Operation.timeAt_le known begun le freshNow keptNow
    obtain ⟨goesOn, addedLater, grows⟩ := ih (operation.begunBy known begun le)
      (fun other member => finite other (List.mem_cons_of_mem _ member)) forwardRest freshRest
      (fun other member => kept other (List.mem_cons_of_mem _ member))
      (List.pairwise_cons.mp forwardRest).1 (List.pairwise_cons.mp forwardRest).2
    obtain ⟨added, growsNow, _⟩ := Operation.grows known begun le keptNow
    have last := LawfulNumber.self_le_right goesOn
    exact ⟨LawfulNumber.le_trans begins goesOn, added ++ addedLater,
      (growsNow.widen begins goesOn).trans (grows.widen begins last)⟩

theorem perform_grows_around {studio : Studio α} {done rest : List (α × Operation α)}
    {made : Operation α} {reading clock : α} (unbegun : studio.session.start = none)
    (finite : ∀ operation ∈ done ++ (reading, made) :: rest, isFinite operation.1 = true)
    (forward : ((done ++ (reading, made) :: rest).map (·.1) ++ [clock]).Pairwise (· ≤ ·))
    (kept : ∀ operation ∈ (reading, made) :: rest, operation.2.isReset = false)
    (fresh : (made.after reading (studio.perform done)).BeginsFresh rest) :
    let before := (studio.perform done).session
    let between := made.after reading (studio.perform done)
    let start := between.session.timeAt reading
    let now := (between.perform rest).session.timeAt clock
    (∃ added, before.Grows between.session start start added ∧
      (made.isPlay = true → ∀ event ∈ added, event.isPlay = true →
        event.time = start ∧ (between.session.active.find? event.channel).isSome = true)) ∧
      start ≤ now ∧
      ∃ more, between.session.Grows (between.perform rest).session start now more := by
  have shown : isFinite reading = true := finite (reading, made) (by simp)
  rw [List.map_append, List.map_cons, List.append_assoc, List.pairwise_append] at forward
  obtain ⟨early, late, across⟩ := forward
  have begun : (studio.perform done).session.BegunBy reading := by
    refine perform_begunBy
      (fun operation member => finite operation (List.mem_append_left _ member))
      (List.pairwise_append.mpr ⟨early, List.pairwise_singleton .., ?_⟩) ?_
    · intro other member last isLast
      exact across other member last (List.mem_singleton.mp isLast ▸ List.mem_cons_self ..)
    · intro _ _ start isStart
      rw [unbegun] at isStart
      cases isStart
  refine ⟨Operation.grows shown begun (LawfulNumber.self_le shown)
    (kept (reading, made) (List.mem_cons_self ..)), ?_⟩
  exact perform_grows (made.begunBy shown begun (LawfulNumber.self_le shown))
    (fun operation member => finite operation (by simp [member])) late fresh
    (fun operation member => kept operation (List.mem_cons_of_mem _ member))

omit [LawfulNumber α] in
theorem stop_all_session (fadeOut : Option α) (clock : α) (studio : Studio α) :
    ((Move.stop none fadeOut).after clock studio).session =
      studio.session.stop (studio.session.timeAt clock)
        (fadeOut.getD (Number.ofInt studio.settings.stopFade)) studio.session.active.keys := by
  change ((Studio.stop none fadeOut).after { studio with clock }).session = _
  unfold Studio.stop change
  rw [Work.after_get_bind, Work.after_modify_bind]
  split
  · rfl
  · split <;> rfl

/-- A stop of all channels silences what was played. It is recorded for each channel that is playing
and for no other, and none is playing after it. The segment of a play that has come by then is over
by then, at its cut or at the end of its clip, and cut if it loops. Only a declared clip may go on,
one that has not ended and for whose channel no stop was recorded from its time on. -/
theorem stop_silences {studio : Studio α} {done rest : List (α × Operation α)}
    {made : Operation α} {reading clock : α} (fadeOut : Option α)
    (unbegun : studio.session.start = none)
    (finite : ∀ operation ∈ done ++ (reading, made) :: rest, isFinite operation.1 = true)
    (forward : ((done ++ (reading, made) :: rest).map (·.1) ++ [clock]).Pairwise (· ≤ ·))
    (kept : ∀ operation ∈ (reading, made) :: rest, operation.2.isReset = false)
    (fresh : (made.after reading (studio.perform done)).BeginsFresh rest) :
    let before := (studio.perform done).session
    let between := (made.after reading (studio.perform done)).session
    let final := studio.perform (done ++ (reading, made) :: rest)
    let now := final.session.timeAt clock
    let stopped := ((Operation.move (.stop none fadeOut)).after clock final).session
    stopped.timeline = final.session.timeline ++ final.session.active.keys.map (fun id =>
        ⟨id, now, .stop (fadeOut.getD (ofInt final.settings.stopFade))⟩) ∧
      (∀ id, stopped.active.find? id = none) ∧
      ∀ (earlier later : List (Event α)) (event : Event α),
        stopped.timeline = earlier ++ event :: later →
        before.timeline.length ≤ earlier.length → earlier.length < between.timeline.length →
        (stopped.channel event.channel).output.isMixed = true →
        ∀ (file : Path) (clip : Clip α), event.sound? = some (file, clip) →
        isFinite event.time = true ∨ 0 ≤ event.time → event.time ≤ now →
        (made.isPlay = true ∨
          (∃ stop ∈ later, stop.StopsOn event.channel ∧ event.time ≤ stop.time) ∨
          (clip.loop = false ∧ event.time + clip.playable ≤ now)) →
        ∃ segment, (stopped.segments.filter (·.channel == event.channel))[
            Event.soundsOn event.channel earlier]? = some segment ∧
          segment.index = Event.soundsOn event.channel earlier ∧ segment.file = file ∧
          segment.cutTime?.getD (event.time + clip.playable) ≤ now ∧
          (clip.loop = true → segment.cutTime?.isSome = true) := by
  intro before between final now stopped
  have isFinal : final = (made.after reading (studio.perform done)).perform rest := by
    change studio.perform _ = _
    rw [perform, List.foldl_append]
    rfl
  have isStopped : stopped = final.session.stop now
      (fadeOut.getD (ofInt final.settings.stopFade)) final.session.active.keys :=
    (congrArg Studio.session (Operation.after_move ..)).trans (stop_all_session fadeOut clock _)
  have timeline : stopped.timeline = final.session.timeline ++ final.session.active.keys.map
      (fun id => ⟨id, now, .stop (fadeOut.getD (ofInt final.settings.stopFade))⟩) := by
    rw [isStopped, Session.stop_timeline]
  refine ⟨timeline, fun id => ?_, ?_⟩
  · rw [isStopped, Session.stop_active]
    split
    · rfl
    · next absent => exact Table.find?_eq_none absent
  intro earlier later event split since inTime mixed file clip sound timed past ends
  obtain ⟨⟨added, grew, plays⟩, goesOn, more, grewOn⟩ :=
    perform_grows_around unbegun finite forward kept fresh
  rw [← isFinal] at goesOn grewOn
  obtain ⟨curve, placed⟩ := Session.segment_of_play split mixed sound
  have whole := timeline.symm.trans split
  refine ⟨_, placed, rfl, rfl, ?_⟩
  -- The first stop from its time on cuts it; without one it is a declared clip that has ended.
  cases found : (later.filter (·.channel == event.channel)).findSome?
      (Event.stopsFrom event.time) with
  | some stop =>
    obtain ⟨finish, fade⟩ := stop
    obtain ⟨first, member, stops, _, rfl⟩ := Event.of_first_stop found
    have inside := grew.stops_past grewOn whole since inTime goesOn member stops
    exact Segment.over_by_stop timed (LawfulNumber.self_le_left inside) inside _ curve
  | none =>
    have unstopped : ¬ ∃ stop ∈ later, stop.StopsOn event.channel ∧ event.time ≤ stop.time := by
      rintro ⟨stop, member, stops, late⟩
      exact Event.not_stopsOn_of_none found member late stops
    rcases ends with isPlay | stopped | ⟨once, ended⟩
    · exact absurd (grew.exists_stop grewOn whole since inTime
        (fun member => plays isPlay event member (Event.isPlay_of_sound sound)) past) unstopped
    · exact absurd stopped unstopped
    · change ((Segment.chainOf clip event.time none _ curve).findSome? Filter.cutTime?).getD _ ≤ now
        ∧ _
      rw [Segment.cutTime?_chainOf]
      exact ⟨ended, fun loops => by rw [once] at loops; cases loops⟩

/-- A clip that loops is cut by the stop of all channels. -/
theorem stop_silences_looping :
    let studio : Studio Rat :=
      { settings := {}, host := { known := [("/music.mp3", ⟨10000, none, none⟩)] },
        session := Session.new, clock := 0 }
    let music : Operation Rat := .move
      (.play { file := "/music.mp3", channel := 2, wait := false, fadeIn := 0, fadeOut := 0,
               loop := true })
    let clip : Clip Rat := ⟨some ⟨.root, ["music.mp3"]⟩, 0, 0, true, none, 10000, 0⟩
    let final := studio.perform ([(5, .move .begin)] ++ (6, music) :: [(7, .move (.volume 3 1 0))])
    let stopped := ((Operation.move (.stop none none)).after 8 final).session
    stopped.timeline = [] ++ ⟨2, 1000, .play clip⟩ ::
        [⟨3, 2000, .volume (some (.amount 1)) 0⟩, ⟨2, 3000, .stop 500⟩] ∧
      ∃ segment, (stopped.segments.filter (·.channel == 2))[0]? = some segment ∧
        segment.cutTime?.getD (1000 + clip.playable) ≤ 3000 ∧ segment.cutTime?.isSome = true := by
  intro studio music clip final stopped
  have forward : ([5, 6, 7, 8] : List Rat).Pairwise (· ≤ ·) := by decide
  obtain ⟨_, _, silent⟩ := @stop_silences _ _ _ studio [(5, .move .begin)]
    [(7, .move (.volume 3 1 0))] music 6 8 none rfl (fun _ _ => rfl) forward (by decide)
    ⟨by decide, trivial⟩
  have split : ((Operation.move (.stop none none)).after 8 (studio.perform ([(5, .move .begin)] ++
      (6, music) :: [(7, .move (.volume 3 1 0))]))).session.timeline =
        [] ++ ⟨2, 1000, .play clip⟩ ::
          [⟨3, 2000, .volume (some (.amount 1)) 0⟩, ⟨2, 3000, .stop 500⟩] := by
    cbv
  have now : (studio.perform ([(5, .move .begin)] ++
      (6, music) :: [(7, .move (.volume 3 1 0))])).session.timeAt 8 = 3000 := by
    cbv
  rw [now] at silent
  obtain ⟨segment, placed, _, _, ends, cut⟩ := silent _ _ _ split (by decide) (by decide +kernel)
    (by decide +kernel) _ clip rfl (.inl rfl) (by decide) (.inl rfl)
  exact ⟨split, segment, placed, ends, cut rfl⟩

/-- A declared clip that loops goes on, since its channel is not known to be playing. And where the
recording is begun anew, a clip goes on up to a stop of the recording before. -/
theorem stop_leaves_sounding :
    let studio : Studio Rat :=
      { settings := {}, host := { known := [("/music.mp3", ⟨9000, none, none⟩)] },
        session := Session.new, clock := 0 }
    let looping : Json :=
      .object [("file", .string "/music.mp3"), ("channel", .int 2), ("loop", .bool true)]
    let declared := (studio.perform [
      (0, .configure (.object [("tracks", .array [looping])]) ⟨.here, []⟩), (5, .move .begin),
      (6, .move (.stop none none))]).session
    let music : Move Rat :=
      .play { file := "/music.mp3", channel := 2, wait := false, fadeIn := 0, fadeOut := 0 }
    let again := (studio.perform [(0, .move .begin), (0, .move music),
      (5, .move (.stop (some 2) none)), (6, .move .begin), (8, .move (.stop none none))]).session
    (declared.timeline.map (·.time) = [0] ∧ declared.timeAt 6 = 1000 ∧
      (declared.timeline.filterMap Event.sound?).map (·.2.loop) = [true] ∧
      declared.segments.map (·.cutTime?) = [none]) ∧
    (again.timeline.map (·.time) = [0, 5000] ∧ again.timeAt 8 = 2000 ∧
      again.segments.map (·.cutTime?) = [some 5000]) := by
  decide +kernel

end Studio

end Screencast
