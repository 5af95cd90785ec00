import Screencast.Proofs.Audio.Recording

/-!
Operations: all that may be asked of a studio, in a recording and between two, each with its answer.
What an operation does to the session is told here once: a configuration adds channels and declares
clips, a move is a step of the recording, and putting the sound together leaves the session alone.
-/

namespace Screencast

variable {α β : Type}

theorem Session.record_nil (session : Session α) : session.record [] = session := by
  rw [record, List.append_nil]

namespace Work

/-- Whether two kinds of work give one answer in studios that are related, and leave them so. -/
def Respects (related : Studio α → Studio α → Prop) (work work' : Work α β) : Prop :=
  ∀ studio other, related studio other →
    work.result studio = work'.result other ∧ related (work.after studio) (work'.after other)

namespace Respects

variable {related : Studio α → Studio α → Prop}

theorem of_pure (value : β) : Respects related (pure value) (pure value) :=
  fun _ _ before => ⟨rfl, before⟩

theorem of_ofExcept {result result' : Except Failure β} (same : result = result') :
    Respects related (ofExcept result) (ofExcept result') :=
  fun _ _ before => ⟨same, before⟩

theorem of_bind {γ : Type} {first first' : Work α β} {next next' : β → Work α γ}
    (respects : Respects related first first')
    (rest : ∀ value, Respects related (next value) (next' value)) :
    Respects related (first >>= next) (first' >>= next') := by
  intro studio other before
  obtain ⟨same, between⟩ := respects studio other before
  rw [result_bind, result_bind, after_bind, after_bind, same]
  cases first'.result other with
  | error failure => exact ⟨rfl, between⟩
  | ok value => exact rest value _ _ between

theorem of_forM {items : List β} {work : β → Work α Unit}
    (respects : ∀ item, Respects related (work item) (work item)) :
    Respects related (items.forM work) (items.forM work) := by
  induction items with
  | nil => exact of_pure _
  | cons item rest ih => exact of_bind (respects item) fun _ => ih

end Respects

def Records (allowed : Event α → Prop) (work : Work α β) : Prop :=
  ∀ studio, ∃ events, (∀ event ∈ events, allowed event) ∧
    (work.after studio).session = studio.session.record events

theorem after_bind_pure {γ : Type} (work : Work α β) (f : β → γ) (studio : Studio α) :
    (work >>= fun value => pure (f value)).after studio = work.after studio := by
  rw [after_bind]
  split <;> rfl

theorem result_bind_pure {γ : Type} (work : Work α β) (f : β → γ) (studio : Studio α) :
    (work >>= fun value => pure (f value)).result studio = (work.result studio).map f := by
  rw [result_bind]
  cases work.result studio <;> rfl

variable {allowed : Event α → Prop}

theorem Records.of_keeps {work : Work α β} (keeps : work.KeepsSession) :
    work.Records allowed := by
  intro studio
  refine ⟨[], by simp, ?_⟩
  rw [keeps, Session.record_nil]

theorem Records.of_bind {γ : Type} {first : Work α β} {next : β → Work α γ}
    (records : first.Records allowed) (rest : ∀ value, (next value).Records allowed) :
    (first >>= next).Records allowed := by
  intro studio
  obtain ⟨before, allowedBefore, first⟩ := records studio
  rw [after_bind]
  split
  · next value _ =>
    obtain ⟨later, allowedLater, added⟩ := rest value _
    refine ⟨before ++ later, fun event member => ?_, ?_⟩
    · exact (List.mem_append.mp member).elim (allowedBefore event) (allowedLater event)
    · rw [added, first]
      simp only [Session.record, List.append_assoc]
  · exact ⟨before, allowedBefore, first⟩

theorem KeepsSession.of_forM {items : List β} {work : β → Work α Unit}
    (keeps : ∀ item, (work item).KeepsSession) : (items.forM work).KeepsSession := by
  induction items with
  | nil => exact .of_pure _
  | cons item rest ih => exact .of_bind (keeps item) fun _ => ih

theorem Records.of_forM {items : List β} {work : β → Work α Unit}
    (records : ∀ item, (work item).Records allowed) : (items.forM work).Records allowed := by
  induction items with
  | nil => exact .of_keeps (.of_pure _)
  | cons item rest ih => exact .of_bind (records item) fun _ => ih

end Work

variable [Number α]

namespace Session

def channelsOf (config : Json) : Except Failure (List (String × Json)) :=
  if config.truthy then do membersOf (← config.memberOrNull "channels") else .ok []

def configured (session : Session α) (config : Json) (base : Path) :
    Except Failure Unit × Session α :=
  match channelsOf config with
  | .ok channels => addChannels { session with base } channels
  | .error failure => (.error failure, { session with base })

theorem addChannels_active (session : Session α) (channels : List (String × Json)) :
    (session.addChannels channels).2.active = session.active := by
  induction channels generalizing session with
  | nil => rfl
  | cons channel rest ih =>
    obtain ⟨name, entry⟩ := channel
    rw [addChannels]
    split
    · exact ih _
    · rfl

theorem configured_active (session : Session α) (config : Json) (base : Path) :
    (session.configured config base).2.active = session.active := by
  unfold configured
  split
  · exact addChannels_active _ _
  · rfl

theorem configured_related (related : Session α → Session α → Prop)
    (withBase : ∀ {session other : Session α} (base : Path), related session other →
      related { session with base } { other with base })
    (addChannel : ∀ {session other : Session α} (channel : Channel α), related session other →
      related (session.addChannel channel) (other.addChannel channel))
    {session other : Session α} (before : related session other) (config : Json) (base : Path) :
    (session.configured config base).1 = (other.configured config base).1 ∧
      related (session.configured config base).2 (other.configured config base).2 := by
  have based := withBase base before
  unfold configured
  generalize ({ session with base } : Session α) = session at based ⊢
  generalize ({ other with base } : Session α) = other at based ⊢
  clear before
  cases channelsOf config with
  | error failure => exact ⟨rfl, based⟩
  | ok channels =>
    change (session.addChannels channels).1 = (other.addChannels channels).1 ∧
      related (session.addChannels channels).2 (other.addChannels channels).2
    induction channels generalizing session other with
    | nil => exact ⟨rfl, based⟩
    | cons entry rest ih =>
      obtain ⟨name, entry⟩ := entry
      rw [addChannels, addChannels]
      split
      · next channel _ => exact ih _ _ (addChannel channel based)
      · exact ⟨rfl, based⟩

theorem configured_preserves (holds : Session α → Prop)
    (withBase : ∀ {session : Session α} (base : Path), holds session → holds { session with base })
    (addChannel : ∀ {session : Session α} (channel : Channel α), holds session →
      holds (session.addChannel channel))
    {session : Session α} (before : holds session) (config : Json) (base : Path) :
    holds (session.configured config base).2 :=
  (@configured_related _ _ (fun session _ => holds session) withBase addChannel session session
    before config base).2

end Session

namespace Studio

theorem declare_records (items : List Json) :
    (declare items : Work α Unit).Records fun event => ∃ clip, event.action = .play clip :=
  .of_forM fun _ => .of_bind (.of_keeps .of_get) fun _ =>
    .of_bind (.of_keeps (.of_ofExcept _)) fun _ =>
      .of_bind (.of_keeps (.of_onHost _)) fun _ _ =>
        ⟨_, fun _ member => List.mem_singleton.mp member ▸ ⟨_, rfl⟩, rfl⟩

def clipsOf (config : Json) : Except Failure (List Json) :=
  if config.truthy then do Session.itemsOf (← config.memberOrNull "tracks") else .ok []

/-- A configuration adds its channels and then, if all of these can be read, declares its clips. -/
theorem configure_eq (config : Json) (base : Path) :
    (configure config base : Work α Unit) = (do
      let studio ← get
      change fun _ => (studio.session.configured config base).2
      Work.ofExcept (studio.session.configured config base).1
      declare (← Work.ofExcept (clipsOf config))) := by
  funext studio
  unfold configure Session.configured Session.channelsOf clipsOf
  cases config.truthy with
  | false => rfl
  | true =>
    simp only [Bool.not_true, Bool.false_eq_true, if_false, if_true]
    cases (do Session.membersOf (← config.memberOrNull "channels")) with
    | error failure => rfl
    | ok channels => rfl

theorem configure_session (config : Json) (base : Path) (studio : Studio α) :
    (∃ events, (∀ event ∈ events, ∃ clip, event.action = .play clip) ∧
      ((configure config base).after studio).session =
        (studio.session.configured config base).2.record events) ∧
      ((configure config base).result studio = .ok () →
        (studio.session.configured config base).1 = .ok ()) := by
  have declares : (Work.ofExcept (clipsOf config) >>= declare : Work α Unit).Records
      fun event => ∃ clip, event.action = .play clip :=
    .of_bind (.of_keeps (.of_ofExcept _)) declare_records
  rw [configure_eq, Work.after_get_bind, Work.result_get_bind]
  obtain ⟨result, session⟩ := studio.session.configured config base
  simp only [Work.after_bind (Studio.change _), Work.result_bind (Studio.change _),
    Work.result_change, Work.after_change, Work.after_bind (Work.ofExcept result),
    Work.result_bind (Work.ofExcept result), Work.result_ofExcept, Work.after_ofExcept]
  cases result with
  | error failure =>
    exact ⟨⟨[], by simp, (session.record_nil).symm⟩, fun isDone => by cases isDone⟩
  | ok _ => exact ⟨declares _, fun _ => rfl⟩

theorem compile_keeps (video : Path) (videoLength : Option α) :
    (compile video videoLength).KeepsSession :=
  .of_bind .of_get fun _ => .of_bind (.of_forM fun _ => .of_onHost _) fun _ => .of_ofExcept _

theorem render_keeps (video output : Path) : (render video output : Work α Bool).KeepsSession :=
  .of_bind (.of_onHost _) fun _ => .of_bind .of_get fun _ => .of_bind (.of_onHost _) fun _ =>
    .of_bind (compile_keeps _ _) fun _ => .of_onHost _

inductive Answer (α : Type) where
  | done
  | length (ms : α)
  | mix (mix : Mix)
  | rendered (success : Bool)

def Move.work : Move α → Work α (Answer α)
  | begin => do
    Studio.begin
    return .done
  | play request => return .length (← Studio.play request)
  | stop id fadeOut => do
    Studio.stop id fadeOut
    return .done
  | volume id level ramp => do
    Studio.setVolume id level ramp
    return .done

theorem Move.work_after (move : Move α) (clock : α) (studio : Studio α) :
    move.work.after { studio with clock } = move.after clock studio := by
  cases move with
  | begin => rfl
  | play request => exact Work.after_bind_pure ..
  | stop id fadeOut => exact Work.after_bind_pure _ (fun _ => Answer.done) _
  | volume id level ramp => rfl

inductive Operation (α : Type) where
  | configure (config : Json) (base : Path)
  | move (move : Move α)
  | compile (video : Path) (videoLength : Option α)
  | render (video output : Path)
  | reset

namespace Operation

def work : Operation α → Work α (Answer α)
  | configure config base => do
    Studio.configure config base
    return .done
  | move made => made.work
  | compile video videoLength => return .mix (← Studio.compile video videoLength)
  | render video output => return .rendered (← Studio.render video output)
  | reset => do
    Studio.reset
    return .done

def after (operation : Operation α) (clock : α) (studio : Studio α) : Studio α :=
  operation.work.after { studio with clock }

def answer (operation : Operation α) (clock : α) (studio : Studio α) :
    Except Failure (Answer α) :=
  operation.work.result { studio with clock }

theorem after_configure_plays (config : Json) (base : Path) (clock : α) (studio : Studio α) :
    ∃ events, (∀ event ∈ events, ∃ clip, event.action = .play clip) ∧
      ((configure config base).after clock studio).session =
        (studio.session.configured config base).2.record events := by
  have same : (configure config base).after clock studio =
      (Studio.configure config base).after { studio with clock } :=
    Work.after_bind_pure _ (fun _ => Answer.done) _
  rw [same]
  exact (configure_session config base _).1

theorem after_configure (config : Json) (base : Path) (clock : α) (studio : Studio α) :
    ∃ events, ((configure config base).after clock studio).session =
      (studio.session.configured config base).2.record events :=
  (after_configure_plays config base clock studio).imp fun _ declared => declared.2

theorem after_move (made : Move α) (clock : α) (studio : Studio α) :
    (move made).after clock studio = made.after clock studio :=
  made.work_after clock studio

theorem after_compile (video : Path) (videoLength : Option α) (clock : α) (studio : Studio α) :
    ((compile video videoLength).after clock studio).session = studio.session := by
  unfold after work
  rw [Work.after_bind_pure]
  exact compile_keeps video videoLength _

theorem after_render (video output : Path) (clock : α) (studio : Studio α) :
    ((render video output).after clock studio).session = studio.session := by
  unfold after work
  rw [Work.after_bind_pure]
  exact render_keeps video output _

theorem after_reset (clock : α) (studio : Studio α) :
    (reset.after clock studio).session = studio.session.reset := rfl

end Operation

/-- The studio after some operations, each with the reading of the clock at which it begins. -/
def perform (studio : Studio α) (operations : List (α × Operation α)) : Studio α :=
  operations.foldl (fun studio (clock, operation) => operation.after clock studio) studio

theorem perform_cons (studio : Studio α) (clock : α) (operation : Operation α)
    (rest : List (α × Operation α)) :
    studio.perform ((clock, operation) :: rest) = (operation.after clock studio).perform rest := rfl

def answers (studio : Studio α) : List (α × Operation α) → List (Except Failure (Answer α))
  | [] => []
  | (clock, operation) :: rest =>
    operation.answer clock studio :: (operation.after clock studio).answers rest

end Studio

end Screencast
