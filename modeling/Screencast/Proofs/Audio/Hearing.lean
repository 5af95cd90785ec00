import Mathlib.Data.List.Forall2
import Screencast.Proofs.Audio.Operation
import Screencast.Proofs.Number.Machine

/-!
What is heard while one records is not recorded. Studios that differ in their sinks, in the waits so
far and in whether a request is waited for go through the same sessions, whatever a sink answers,
and give the same answers as long as the sinks tell them nothing but times that can be waited for.
-/

namespace Screencast

variable {α β γ : Type}

/-- Whether a sink's answer is empty or tells a number of seconds. A whole number of them must lie,
with the margin, in the range of the machine's numbers. -/
def Sink.Tells (α : Type) [Number α] (margin : Int) (answer : Json) : Prop :=
  match (answer.orElse (.object [])).memberOrNull "duration" with
  | .ok .null | .ok (.float _) | .ok (.bool false) => True
  | .ok (.bool true) => Number.isFinite (Studio.secondsOf (1000 + margin) : α) = true
  | .ok (.int n) => n = 0 ∨ Number.isFinite (Studio.secondsOf (n * 1000 + margin) : α) = true
  | _ => False

namespace Studio

theorem exists_waitFor [Number α] {margin : Int}
    (finite : Number.isFinite (Number.ofInt margin : α) = true) (length : α) {answer : Json}
    (tells : Sink.Tells α margin answer) :
    ∃ seconds, waitFor margin length answer = .ok seconds := by
  have added (ms : α) : ∃ seconds, secondsWith margin ms = .ok seconds :=
    ⟨_, if_pos finite⟩
  unfold Sink.Tells at tells
  unfold waitFor
  split at tells
  · next told =>
    rw [told]
    exact added length
  · next x told =>
    rw [told]
    cases truthy : (Json.float x).truthy with
    | false =>
      simp only [bind, Except.bind, truthy]
      exact added length
    | true =>
      simp only [bind, Except.bind, truthy]
      exact added _
  · next told =>
    rw [told]
    exact added length
  · next told =>
    rw [told]
    exact ⟨_, if_pos tells⟩
  · next n told =>
    rw [told]
    by_cases none : n = 0
    · subst none
      exact added length
    · have truthy : (Json.int n).truthy = true := by simp [Json.truthy, none]
      simp only [bind, Except.bind, truthy]
      exact ⟨_, if_pos (tells.resolve_left none)⟩
  · exact tells.elim

structure Equipped (settings : Settings) (allowed : Json → Prop) (studio : Studio α) : Prop where
  settings : studio.settings = settings
  answers : ∀ sink, studio.sink = some sink → ∀ answer ∈ sink.answers, allowed answer

/-- Whether two studios may differ in their sinks, clocks and waits, and in nothing else. -/
structure Agrees (settings : Settings) (allowed : Json → Prop) (studio other : Studio α) :
    Prop where
  host : studio.host = other.host
  session : studio.session = other.session
  left : studio.Equipped settings allowed
  right : other.Equipped settings allowed

structure InStep (settings : Settings) (allowed : Json → Prop) (studio other : Studio α) : Prop
    extends Agrees settings allowed studio other where
  clock : studio.clock = other.clock

variable {settings : Settings} {allowed : Json → Prop} {studio other : Studio α}

theorem Agrees.refl (equipped : studio.Equipped settings allowed) :
    studio.Agrees settings allowed studio :=
  ⟨rfl, rfl, equipped, equipped⟩

theorem Agrees.symm (agrees : studio.Agrees settings allowed other) :
    other.Agrees settings allowed studio :=
  ⟨agrees.host.symm, agrees.session.symm, agrees.right, agrees.left⟩

theorem Agrees.trans {third : Studio α} (before : studio.Agrees settings allowed other)
    (after : other.Agrees settings allowed third) : studio.Agrees settings allowed third :=
  ⟨before.host.trans after.host, before.session.trans after.session, before.left, after.right⟩

theorem Agrees.tick (agrees : studio.Agrees settings allowed other) (clock : α) :
    ({ studio with clock } : Studio α).InStep settings allowed { other with clock } :=
  ⟨⟨agrees.host, agrees.session, ⟨agrees.left.settings, agrees.left.answers⟩,
    agrees.right.settings, agrees.right.answers⟩, rfl⟩

end Studio

namespace Work

variable {settings : Settings} {allowed : Json → Prop}

def Apart (settings : Settings) (allowed : Json → Prop) (work : Work α β) : Prop :=
  ∀ studio : Studio α, studio.Equipped settings allowed →
    studio.Agrees settings allowed (work.after studio)

namespace Apart

theorem of_pure (value : β) : (pure value : Work α β).Apart settings allowed :=
  fun _ equipped => .refl equipped

theorem of_ofExcept (result : Except Failure β) :
    (ofExcept result : Work α β).Apart settings allowed :=
  fun _ equipped => .refl equipped

theorem of_bind {first : Work α β} {next : β → Work α γ} (apart : first.Apart settings allowed)
    (rest : ∀ value, (next value).Apart settings allowed) :
    (first >>= next).Apart settings allowed := by
  intro studio equipped
  have between := apart studio equipped
  rw [after_bind]
  split
  · exact between.trans (rest _ _ between.right)
  · exact between

theorem of_wait [Number α] (seconds : α) : (Studio.wait seconds).Apart settings allowed :=
  fun _ equipped => ⟨rfl, rfl, equipped, equipped.settings, equipped.answers⟩

theorem of_playLive {sink : Sink} (answers : ∀ answer ∈ sink.answers, allowed answer)
    (file : Path) : (Studio.playLive sink file : Work α Json).Apart settings allowed := by
  refine fun studio equipped => ⟨rfl, rfl, equipped, equipped.settings, ?_⟩
  rintro _ ⟨⟩ answer member
  exact answers answer (List.mem_of_mem_tail member)

end Apart

def Quiet (settings : Settings) (allowed : Json → Prop) (work : Work α Unit) : Prop :=
  ∀ studio : Studio α, studio.Equipped settings allowed →
    work.result studio = .ok () ∧ studio.InStep settings allowed (work.after studio)

namespace Respects

theorem of_onHost (job : Job α β) :
    Respects (Studio.InStep settings allowed) (Studio.onHost job) (Studio.onHost job) := by
  intro studio other inStep
  obtain ⟨⟨host, session, left, right⟩, clock⟩ := inStep
  rw [result_onHost, result_onHost, after_onHost, after_onHost, host]
  exact ⟨rfl, ⟨rfl, session, ⟨left.settings, left.answers⟩, right.settings, right.answers⟩, clock⟩

theorem of_change (f : Session α → Session α) :
    Respects (Studio.InStep settings allowed) (Studio.change f) (Studio.change f) := by
  intro studio other inStep
  obtain ⟨⟨host, session, left, right⟩, clock⟩ := inStep
  rw [after_change, after_change, session]
  exact ⟨rfl, ⟨host, rfl, ⟨left.settings, left.answers⟩, right.settings, right.answers⟩, clock⟩

theorem of_get_bind {next next' : Studio α → Work α β}
    (rest : ∀ (studio : Studio α) sink waits waitsTakeTime,
      ({ studio with sink } : Studio α).Equipped settings allowed →
      studio.Equipped settings allowed →
        Respects (Studio.InStep settings allowed) (next { studio with sink, waits, waitsTakeTime })
          (next' studio)) :
    Respects (Studio.InStep settings allowed) (get >>= next) (get >>= next') := by
  intro studio other inStep
  obtain ⟨⟨host, session, left, right⟩, clock⟩ := inStep
  have same : studio = { other with
      sink := studio.sink, waits := studio.waits, waitsTakeTime := studio.waitsTakeTime } := by
    have settings := left.settings.trans right.settings.symm
    cases studio
    cases other
    simp only at host session settings clock
    subst host session settings clock
    rfl
  have follows := rest other studio.sink studio.waits studio.waitsTakeTime
    ⟨right.settings, left.answers⟩ right
  rw [← same] at follows
  exact follows studio other ⟨⟨host, session, left, right⟩, clock⟩

theorem of_quiet {work work' : Work α Unit} (quiet : work.Quiet settings allowed)
    (quiet' : work'.Quiet settings allowed) :
    Respects (Studio.InStep settings allowed) work work' := by
  intro studio other inStep
  obtain ⟨isDone, before⟩ := quiet studio inStep.left
  obtain ⟨isDone', after⟩ := quiet' other inStep.right
  have agrees := before.toAgrees.symm.trans (inStep.toAgrees.trans after.toAgrees)
  exact ⟨isDone.trans isDone'.symm, agrees,
    before.clock.symm.trans (inStep.clock.trans after.clock)⟩

end Respects

end Work

namespace Studio

variable [Number α] {settings : Settings} {allowed : Json → Prop} {studio other : Studio α}

theorem hear_apart (request : Request α) (file : Path) (length : α) (output : Output) :
    (hear request file length output).Apart settings allowed := by
  intro studio equipped
  unfold hear
  rw [Work.after_get_bind]
  split
  · split
    · exact .refl equipped
    · next sink isSink =>
      refine Work.Apart.of_bind (.of_playLive (equipped.answers sink isSink) file)
        (fun answer => ?_) studio equipped
      split
      · exact .of_bind (.of_ofExcept _) fun _ => .of_wait _
      · exact .of_pure _
  · split
    · exact Work.Apart.of_wait _ studio equipped
    · exact .refl equipped

/-- Whether whatever a sink may answer, and nothing too, can be waited for. -/
def CanWait (α : Type) [Number α] (margin : Int) (allowed : Json → Prop) : Prop :=
  ∀ (length : α) (answer : Json), answer = .null ∨ allowed answer →
    ∃ seconds, waitFor margin length answer = .ok seconds

theorem hear_result (request : Request α) (file : Path) (length : α) (output : Output)
    (canWait : CanWait α settings.settleMargin allowed)
    (equipped : studio.Equipped settings allowed) :
    (hear request file length output).result studio = .ok () := by
  unfold hear
  rw [Work.result_get_bind]
  split
  · split
    · rfl
    · next sink isSink =>
      have told : sink.answers.head?.getD .null = .null ∨
          allowed (sink.answers.head?.getD .null) := by
        cases answers : sink.answers with
        | nil => exact .inl rfl
        | cons answer rest =>
          exact .inr (equipped.answers sink isSink answer (answers ▸ List.mem_cons_self))
      obtain ⟨seconds, waited⟩ := canWait length _ told
      have played : (playLive sink file : Work α Json).result studio =
        .ok (sink.answers.head?.getD .null) := rfl
      rw [Work.result_bind, played, equipped.settings]
      dsimp only
      split
      · simp only [Work.result_bind, Work.result_ofExcept, waited]
        rfl
      · rfl
  · split <;> rfl

def enter (request : Request α) : Work α (Path × α × Output) := do
  let studio ← get
  let channel := studio.session.channel request.channel
  let file ← Work.ofExcept (Path.ofMedia studio.host.homes studio.session.base request.file)
  let length ← onHost (Media.duration studio.settings file)
  if length ≤ 0 then warn logger ("Áudio ausente ou vazio: " ++ file.toString)
  let cue : Cue α :=
    ⟨file, length, request.fadeIn, request.fadeOut, request.start, request.loop⟩
  change (·.play (Number.ofInt studio.settings.crossfadeMin) studio.now request.channel cue)
  pure (file, length, channel.output)

/-- A request is recorded first and heard then. -/
theorem play_eq (request : Request α) : play request = (do
    let (file, length, output) ← enter request
    hear request file length output
    pure length) := by
  unfold play enter
  simp only [bind_assoc]
  refine bind_congr fun studio => bind_congr fun file => bind_congr fun length => ?_
  split <;> simp only [bind_assoc, pure_bind]

theorem enter_respects (request : Request α) :
    Work.Respects (InStep settings allowed) (enter request) (enter request) := by
  refine .of_get_bind fun studio sink waits waitsTakeTime _ _ => ?_
  refine .of_bind (.of_ofExcept rfl) fun file => .of_bind (.of_onHost _) fun length => ?_
  have rest (cue : Cue α) (made : Path × α × Output) :
      Work.Respects (InStep settings allowed)
        (change (·.play (Number.ofInt studio.settings.crossfadeMin) studio.now request.channel cue)
          >>= fun _ => pure made)
        (change (·.play (Number.ofInt studio.settings.crossfadeMin) studio.now request.channel cue)
          >>= fun _ => pure made) :=
    .of_bind (.of_change _) fun _ => .of_pure _
  split
  · exact .of_bind (.of_onHost _) fun _ => rest _ _
  · exact rest _ _

/-- A request is recorded alike whether it is waited for or not. -/
theorem play_agrees (request : Request α) (wait wait' : Bool)
    (inStep : studio.InStep settings allowed other) :
    ((play { request with wait }).after studio).Agrees settings allowed
        ((play { request with wait := wait' }).after other) ∧
      (CanWait α settings.settleMargin allowed →
        (play { request with wait }).result studio =
          (play { request with wait := wait' }).result other) := by
  have entered (wait : Bool) : enter { request with wait } = enter request := rfl
  obtain ⟨same, between⟩ := enter_respects request studio other inStep
  rw [play_eq, play_eq, entered wait, entered wait', Work.after_bind, Work.after_bind,
    Work.result_bind, Work.result_bind, same]
  generalize (enter request).after studio = studio at between ⊢
  generalize (enter request).result other = made
  generalize (enter request).after other = other at between ⊢
  cases made with
  | error failure => exact ⟨between.toAgrees, fun _ => rfl⟩
  | ok made =>
    obtain ⟨file, length, output⟩ := made
    have apart (request : Request α) {studio : Studio α}
        (equipped : studio.Equipped settings allowed) : studio.Agrees settings allowed
          ((hear request file length output >>= fun _ => pure length).after studio) :=
      Work.Apart.of_bind (hear_apart request file length output) (fun _ => .of_pure length) studio
        equipped
    have heard (request : Request α) {studio : Studio α}
        (canWait : CanWait α settings.settleMargin allowed)
        (equipped : studio.Equipped settings allowed) :
        (hear request file length output >>= fun _ => pure length).result studio = .ok length := by
      rw [Work.result_bind, hear_result request file length output canWait equipped]
      rfl
    refine ⟨?_, fun canWait => ?_⟩
    · exact (apart _ between.left).symm.trans (between.toAgrees.trans (apart _ between.right))
    · exact (heard _ canWait between.left).trans (heard _ canWait between.right).symm

omit [Number α] in
theorem begin_respects :
    Work.Respects (InStep settings allowed) (Studio.begin : Work α Unit) Studio.begin :=
  .of_get_bind fun _ _ _ _ _ _ => .of_change _

def hush (sink : Option Sink) (live : Bool) : Work α Unit := do
  match sink with
  | none => return
  | some sink =>
    if live then modify ({ · with sink := some { sink with stops := sink.stops + 1 } })

omit [Number α] in
theorem hush_quiet (studio : Studio α) {sink : Option Sink}
    (equipped : ({ studio with sink } : Studio α).Equipped settings allowed) (live : Bool) :
    (hush sink live : Work α Unit).Quiet settings allowed := by
  intro studio before
  unfold hush
  split
  · exact ⟨rfl, .refl before, rfl⟩
  · next sink =>
    split
    · refine ⟨rfl, ⟨rfl, rfl, before, before.settings, ?_⟩, rfl⟩
      rintro _ ⟨⟩
      exact equipped.answers sink rfl
    · exact ⟨rfl, .refl before, rfl⟩

theorem stop_respects (id : Option Int) (fadeOut : Option α) :
    Work.Respects (InStep settings allowed) (stop id fadeOut) (stop id fadeOut) := by
  refine .of_get_bind fun studio sink waits waitsTakeTime left right => ?_
  refine .of_bind (.of_change _) fun _ => ?_
  exact .of_quiet (hush_quiet studio left _) (hush_quiet studio right _)

theorem setVolume_respects (id : Int) (level ramp : α) :
    Work.Respects (InStep settings allowed) (setVolume id level ramp) (setVolume id level ramp) :=
  .of_get_bind fun _ _ _ _ _ _ => .of_change _

theorem declare_respects (items : List Json) :
    Work.Respects (InStep settings allowed) (declare items : Work α Unit) (declare items) :=
  .of_forM fun _ => .of_get_bind fun _ _ _ _ _ _ =>
    .of_bind (.of_ofExcept rfl) fun _ => .of_bind (.of_onHost _) fun _ => .of_change _

theorem configure_respects (config : Json) (base : Path) :
    Work.Respects (InStep settings allowed) (configure config base : Work α Unit)
      (configure config base) := by
  rw [configure_eq]
  refine .of_get_bind fun _ _ _ _ _ _ => .of_bind (.of_change _) fun _ => ?_
  refine .of_bind (.of_ofExcept rfl) fun _ => .of_bind (.of_ofExcept rfl) fun clips => ?_
  exact declare_respects clips

theorem reset_respects : Work.Respects (InStep settings allowed) (reset : Work α Unit) reset :=
  .of_bind (.of_change _) fun _ => .of_onHost _

theorem compile_respects (video : Path) (videoLength : Option α) :
    Work.Respects (InStep settings allowed) (compile video videoLength)
      (compile video videoLength) :=
  .of_get_bind fun _ _ _ _ _ _ =>
    .of_bind (.of_forM fun _ => .of_onHost _) fun _ => .of_ofExcept rfl

theorem render_respects (video output : Path) :
    Work.Respects (InStep settings allowed) (render video output : Work α Bool)
      (render video output) :=
  .of_bind (.of_onHost _) fun _ => .of_get_bind fun _ _ _ _ _ _ =>
    .of_bind (.of_onHost _) fun _ => .of_bind (compile_respects _ _) fun _ => .of_onHost _

theorem Operation.work_respects {operation : Operation α}
    (isPlay : ∀ request, operation ≠ .move (.play request)) :
    Work.Respects (InStep settings allowed) operation.work operation.work := by
  cases operation with
  | configure config base => exact .of_bind (configure_respects config base) fun _ => .of_pure _
  | compile video videoLength =>
    exact .of_bind (compile_respects video videoLength) fun _ => .of_pure _
  | render video output => exact .of_bind (render_respects video output) fun _ => .of_pure _
  | reset => exact .of_bind reset_respects fun _ => .of_pure _
  | move made =>
    cases made with
    | begin => exact .of_bind begin_respects fun _ => .of_pure _
    | play request => exact absurd rfl (isPlay request)
    | stop id fadeOut => exact .of_bind (stop_respects id fadeOut) fun _ => .of_pure _
    | volume id level ramp => exact .of_bind (setVolume_respects id level ramp) fun _ => .of_pure _

/-- Whether two turns have one operation at one reading of the clock, but for the wait of a play. -/
inductive SameTurn : α × Operation α → α × Operation α → Prop
  | same (turn : α × Operation α) : SameTurn turn turn
  | play (clock : α) (request : Request α) (wait wait' : Bool) :
    SameTurn (clock, .move (.play { request with wait }))
      (clock, .move (.play { request with wait := wait' }))

theorem Agrees.turn {turn turn' : α × Operation α} (same : SameTurn turn turn')
    (agrees : studio.Agrees settings allowed other) :
    (turn.2.after turn.1 studio).Agrees settings allowed (turn'.2.after turn'.1 other) ∧
      (CanWait α settings.settleMargin allowed →
        turn.2.answer turn.1 studio = turn'.2.answer turn'.1 other) := by
  have played (clock : α) (request : Request α) (wait wait' : Bool) :
      ((Operation.move (.play { request with wait })).after clock studio).Agrees settings allowed
          ((Operation.move (.play { request with wait := wait' })).after clock other) ∧
        (CanWait α settings.settleMargin allowed →
          (Operation.move (.play { request with wait })).answer clock studio =
            (Operation.move (.play { request with wait := wait' })).answer clock other) := by
    obtain ⟨after, result⟩ := play_agrees request wait wait' (agrees.tick clock)
    rw [Operation.after_move, Operation.after_move]
    refine ⟨after, fun canWait => ?_⟩
    change (play _ >>= fun ms => pure (Answer.length ms)).result _ =
      (play _ >>= fun ms => pure (Answer.length ms)).result _
    rw [Work.result_bind_pure, Work.result_bind_pure, result canWait]
  cases same with
  | play clock request wait wait' => exact played clock request wait wait'
  | same =>
    obtain ⟨clock, operation⟩ := turn
    by_cases isPlay : ∃ request, operation = .move (.play request)
    · obtain ⟨request, rfl⟩ := isPlay
      exact played clock request request.wait request.wait
    · obtain ⟨same, after⟩ := Operation.work_respects (fun request same => isPlay ⟨request, same⟩)
        _ _ (agrees.tick clock)
      exact ⟨after.toAgrees, fun _ => same⟩

theorem Agrees.perform {turns turns' : List (α × Operation α)}
    (same : List.Forall₂ SameTurn turns turns') (agrees : studio.Agrees settings allowed other) :
    (studio.perform turns).Agrees settings allowed (other.perform turns') ∧
      (CanWait α settings.settleMargin allowed → studio.answers turns = other.answers turns') := by
  induction same generalizing studio other with
  | nil => exact ⟨agrees, fun _ => rfl⟩
  | cons first _ ih =>
    obtain ⟨between, answer⟩ := agrees.turn first
    obtain ⟨after, answers⟩ := ih between
    exact ⟨after, fun canWait => congrArg₂ List.cons (answer canWait) (answers canWait)⟩

/-- Two runs of one studio with the same operations at the same readings of the clock have the same
sessions after each operation, whatever their sinks are and answer and whichever plays are waited
for. If the sinks answer nothing, or times that can be waited for, the answers are the same too. -/
theorem recorded_unheard {studio other : Studio α} (settings : studio.settings = other.settings)
    (host : studio.host = other.host) (session : studio.session = other.session)
    {turns turns' : List (α × Operation α)} (same : List.Forall₂ SameTurn turns turns') :
    (∀ count, (studio.perform (turns.take count)).session =
      (other.perform (turns'.take count)).session) ∧
    (Number.isFinite (Number.ofInt other.settings.settleMargin : α) = true →
      (∀ sink, studio.sink = some sink ∨ other.sink = some sink → ∀ answer ∈ sink.answers,
        Sink.Tells α other.settings.settleMargin answer) →
      studio.answers turns = other.answers turns') := by
  constructor
  · intro count
    have agrees : studio.Agrees other.settings (fun _ => True) other :=
      ⟨host, session, ⟨settings, fun _ _ _ _ => trivial⟩, rfl, fun _ _ _ _ => trivial⟩
    exact (agrees.perform (List.forall₂_take count same)).1.session
  · intro finite tells
    have agrees : studio.Agrees other.settings (Sink.Tells α other.settings.settleMargin) other :=
      ⟨host, session, ⟨settings, fun sink found => tells sink (.inl found)⟩, rfl,
        fun sink found => tells sink (.inr found)⟩
    refine (agrees.perform same).2 fun length answer told => ?_
    have told : Sink.Tells α other.settings.settleMargin answer :=
      told.elim (fun none => none ▸ trivial) id
    exact exists_waitFor finite length told

/-- A clip on the channel that is live and one on a channel that is mixed in, once without a sink
and once with one that tells how long it plays, waited for in other places. -/
theorem recorded_unheard_live :
    let studio (sink : Option Sink) : Studio Float :=
      { settings := {}, host := { known := [("/a.wav", ⟨5000, none, none⟩)] }, session := .new
        sink, clock := 0 }
    let sink : Sink := ⟨[.object [("duration", .float 2.5)], .null], [], 0⟩
    let request (channel : Int) : Request Float :=
      { file := "/a.wav", channel, fadeIn := 0, fadeOut := 0 }
    let turns (wait : Bool) : List (Float × Operation Float) :=
      [(1, .move .begin), (2, .move (.play (request 1))),
        (9, .move (.play { request 2 with wait })), (20, .move (.stop none none))]
    (∀ count, ((studio none).perform ((turns true).take count)).session =
      ((studio (some sink)).perform ((turns false).take count)).session) ∧
      (studio none).answers (turns true) = (studio (some sink)).answers (turns false) := by
  intro studio sink request turns
  have same : List.Forall₂ SameTurn (turns true) (turns false) :=
    .cons (.same _) (.cons (.same _) (.cons (.play 9 (request 2) true false)
      (.cons (.same _) .nil)))
  have settings : (studio none).settings = (studio (some sink)).settings := rfl
  obtain ⟨sessions, answers⟩ := recorded_unheard settings rfl rfl same
  refine ⟨sessions, answers (LawfulNumber.isFinite_ofInt (by decide)) ?_⟩
  intro told found answer member
  obtain rfl : sink = told := found.elim (fun none => by cases none) Option.some.inj
  have told : answer ∈ [Json.object [("duration", .float 2.5)], .null] := member
  simp only [List.mem_cons, List.not_mem_nil, or_false] at told
  rcases told with rfl | rfl <;> trivial

/-- A sink that tells a whole number of seconds beyond the range of the machine's numbers lets a
play fail, after it is recorded. -/
theorem play_fails_unheard :
    let studio (sink : Option Sink) : Studio Float :=
      { settings := {}, host := { known := [("/a.wav", ⟨5000, none, none⟩)] }, session := .new
        sink, clock := 0 }
    let sink : Sink := ⟨[.object [("duration", .int (10 ^ 400))]], [], 0⟩
    let turns : List (Float × Operation Float) :=
      [(1, .move .begin), (2, .move (.play { file := "/a.wav", fadeIn := 0, fadeOut := 0 }))]
    ((studio none).answers turns).map Except.isOk = [true, true] ∧
      ((studio (some sink)).answers turns).map Except.isOk = [true, false] := by
  decide +kernel

end Studio

end Screencast
