import Screencast.Proofs.Audio.Likeness

/-!
A reset makes a session new. Studios with sessions that are alike give like answers to every further
operation; and a session that is reset is like a new one that has only been told the channels again.
Which volumes were changed in the meantime, and when they were noted, makes no difference.
-/

namespace Screencast

variable {α β γ : Type} [Number α]

def Studio.Like (studio other : Studio α) : Prop :=
  ∃ session, studio = { other with session } ∧ session.Like other.session

namespace Work

def Like (work work' : Work α β) : Prop :=
  ∀ studio other, studio.Like other →
    work.result studio = work'.result other ∧ (work.after studio).Like (work'.after other)

namespace Like

theorem of_pure (value : β) : (pure value : Work α β).Like (pure value) :=
  Respects.of_pure value

theorem of_ofExcept {result result' : Except Failure β} (same : result = result') :
    (ofExcept result : Work α β).Like (ofExcept result') :=
  Respects.of_ofExcept same

theorem of_onHost (job : Job α β) : (Studio.onHost job).Like (Studio.onHost job) := by
  rintro _ other ⟨session, rfl, like⟩
  exact ⟨rfl, session, rfl, like⟩

theorem of_change {f g : Session α → Session α}
    (alike : ∀ session other, session.Like other → (f session).Like (g other)) :
    (Studio.change f).Like (Studio.change g) := by
  rintro _ other ⟨session, rfl, like⟩
  exact ⟨rfl, f session, rfl, alike _ _ like⟩

theorem of_bind {first first' : Work α β} {next next' : β → Work α γ} (like : first.Like first')
    (rest : ∀ value, (next value).Like (next' value)) :
    (first >>= next).Like (first' >>= next') :=
  Respects.of_bind like rest

theorem of_get_bind {next next' : Studio α → Work α β}
    (rest : ∀ session other, session.Like other.session →
      (next { other with session }).Like (next' other)) :
    (get >>= next).Like (get >>= next') := by
  rintro _ other ⟨session, rfl, like⟩
  exact rest session other like _ other ⟨session, rfl, like⟩

theorem of_forM {items : List β} {work : β → Work α Unit}
    (like : ∀ item, (work item).Like (work item)) : (items.forM work).Like (items.forM work) :=
  Respects.of_forM like

theorem of_modify {f : Studio α → Studio α}
    (beside : ∀ studio session, f { studio with session } = { f studio with session })
    (keeps : ∀ studio, (f studio).session = studio.session) :
    (modify f : Work α Unit).Like (modify f) := by
  rintro _ other ⟨session, rfl, like⟩
  exact ⟨rfl, session, beside other session, (keeps other).symm ▸ like⟩

end Like

end Work

namespace Studio

theorem wait_like (seconds : α) : (wait seconds).Like (wait seconds) :=
  .of_modify (fun _ _ => rfl) fun _ => rfl

theorem hear_like (request : Request α) (file : Path) (length : α) (output : Output) :
    (hear request file length output).Like (hear request file length output) := by
  unfold hear
  refine .of_get_bind fun session other like => ?_
  dsimp only
  split
  · split
    · exact .of_pure _
    · next sink _ =>
      have answered : (playLive sink file : Work α Json).Like (playLive sink file) :=
        .of_bind (.of_modify (fun _ _ => rfl) fun _ => rfl) fun _ => .of_pure _
      refine .of_bind answered fun answer => ?_
      split
      · exact .of_bind (.of_ofExcept rfl) fun _ => wait_like _
      · exact .of_pure _
  · split
    · exact wait_like _
    · exact .of_pure _

theorem begin_like : (Studio.begin : Work α Unit).Like Studio.begin := by
  refine .of_get_bind fun session other like => ?_
  exact .of_change fun _ _ alike => alike.begin _

theorem play_like (request : Request α) : (play request).Like (play request) := by
  refine .of_get_bind fun session other like => ?_
  dsimp only
  have time : ({ other with session } : Studio α).now = other.now := like.timeAt other.clock
  refine .of_bind (.of_ofExcept (by rw [like.base])) fun file => ?_
  refine .of_bind (.of_onHost _) fun length => ?_
  rw [like.channel, time]
  have rest (cue : Cue α) (least : α) (output : Output) :
      (change (·.play least other.now request.channel cue) >>= fun _ =>
        hear request file length output >>= fun _ => pure length).Like
      (change (·.play least other.now request.channel cue) >>= fun _ =>
        hear request file length output >>= fun _ => pure length) :=
    .of_bind (.of_change fun _ _ alike => alike.play ..) fun _ =>
      .of_bind (hear_like _ _ _ _) fun _ => .of_pure length
  -- The warning of an empty file comes before the change or not, the rest is the same.
  split
  · exact .of_bind (.of_onHost _) fun _ => rest _ _ _
  · exact rest _ _ _

theorem stop_like (id : Option Int) (fadeOut : Option α) :
    (stop id fadeOut).Like (stop id fadeOut) := by
  refine .of_get_bind fun session other like => ?_
  have time : ({ other with session } : Studio α).now = other.now := like.timeAt other.clock
  have targets : session.stopTargets id = other.session.stopTargets id := by
    unfold Session.stopTargets
    rw [like.active]
  dsimp only
  rw [time, targets]
  simp only [like.channel]
  refine .of_bind (.of_change fun _ _ alike => alike.stop ..) fun _ => ?_
  split
  · exact .of_pure _
  · split
    · exact .of_modify (fun _ _ => rfl) fun _ => rfl
    · exact .of_pure _

theorem setVolume_like (id : Int) (level ramp : α) :
    (setVolume id level ramp).Like (setVolume id level ramp) := by
  refine .of_get_bind fun session other like => ?_
  have time : ({ other with session } : Studio α).now = other.now := like.timeAt other.clock
  rw [time]
  exact .of_change fun _ _ alike => alike.setVolume ..

theorem declare_like (items : List Json) : (declare items : Work α Unit).Like (declare items) := by
  refine .of_forM fun item => .of_get_bind fun session other like => ?_
  refine .of_bind (.of_ofExcept (by rw [like.base])) fun declared => ?_
  refine .of_bind (.of_onHost _) fun length => ?_
  exact .of_change fun _ _ alike => alike.record _

theorem configure_like (config : Json) (base : Path) :
    (configure config base : Work α Unit).Like (configure config base) := by
  rw [configure_eq]
  refine .of_get_bind fun session other like => ?_
  obtain ⟨same, alike⟩ := like.configured config base
  refine .of_bind (.of_change fun _ _ _ => alike) fun _ => ?_
  refine .of_bind (.of_ofExcept same) fun _ => .of_bind (.of_ofExcept rfl) fun clips => ?_
  exact declare_like clips

theorem reset_like : (reset : Work α Unit).Like reset :=
  .of_bind (.of_change fun _ _ alike => alike.reset) fun _ => .of_onHost _

theorem compile_like (video : Path) (videoLength : Option α) :
    (compile video videoLength).Like (compile video videoLength) := by
  refine .of_get_bind fun session other like => ?_
  have same : session.mix video videoLength = other.session.mix video videoLength :=
    like.mix video videoLength
  generalize session.mix video videoLength = mixed at same ⊢
  subst same
  exact .of_bind (.of_forM fun _ => .of_onHost _) fun _ => .of_ofExcept rfl

theorem render_like (video output : Path) :
    (render video output : Work α Bool).Like (render video output) := by
  refine .of_bind (.of_onHost _) fun _ => .of_get_bind fun _ other like => ?_
  exact .of_bind (.of_onHost _) fun _ => .of_bind (compile_like _ _) fun _ => .of_onHost _

theorem Move.work_like (move : Move α) : move.work.Like move.work := by
  cases move with
  | begin => exact .of_bind begin_like fun _ => .of_pure _
  | play request => exact .of_bind (play_like request) fun _ => .of_pure _
  | stop id fadeOut => exact .of_bind (stop_like id fadeOut) fun _ => .of_pure _
  | volume id level ramp => exact .of_bind (setVolume_like id level ramp) fun _ => .of_pure _

theorem Operation.work_like (operation : Operation α) : operation.work.Like operation.work := by
  cases operation with
  | configure config base => exact .of_bind (configure_like config base) fun _ => .of_pure _
  | move made => exact made.work_like
  | compile video videoLength => exact .of_bind (compile_like video videoLength) fun _ => .of_pure _
  | render video output => exact .of_bind (render_like video output) fun _ => .of_pure _
  | reset => exact .of_bind reset_like fun _ => .of_pure _

theorem Like.tick {studio other : Studio α} (like : studio.Like other) (clock : α) :
    ({ studio with clock } : Studio α).Like { other with clock } := by
  obtain ⟨session, rfl, like⟩ := like
  exact ⟨session, rfl, like⟩

/-- Studios that are alike cannot be told apart by any operations. -/
theorem Like.perform {studio other : Studio α} (like : studio.Like other)
    (operations : List (α × Operation α)) :
    studio.answers operations = other.answers operations ∧
      (studio.perform operations).Like (other.perform operations) := by
  induction operations generalizing studio other with
  | nil => exact ⟨rfl, like⟩
  | cons first rest ih =>
    obtain ⟨clock, operation⟩ := first
    obtain ⟨same, alike⟩ := operation.work_like _ _ (like.tick clock)
    obtain ⟨sameRest, alikeRest⟩ := ih alike
    exact ⟨congrArg₂ List.cons same sameRest, alikeRest⟩

end Studio

namespace Session

variable {session other : Session α}

theorem reset_stop (session : Session α) (time fadeOut : α) (targets : List Int) :
    (session.stop time fadeOut targets).reset = session.reset := by
  unfold Session.stop
  induction targets generalizing session with
  | nil => rfl
  | cons target rest ih => exact ih (session.stopOne time fadeOut target)

/-- What a recording does to a session is undone by a reset. -/
theorem Step.reset_like {time : α} {next : Session α} (step : Step time session next)
    (noted : session.volumes.keys.Nodup) : next.reset.Like session.reset := by
  cases step with
  | idle => exact .refl noted
  | play least id cue => exact .refl noted
  | stop fadeOut targets =>
    rw [reset_stop]
    exact .refl noted
  | volume id level ramp =>
    have notedToo : (session.setVolume time id level ramp).volumes.keys.Nodup :=
      Like.keepVolume_noted noted id
    refine ⟨rfl, rfl, rfl, rfl, fun other => ?_, fun other => ?_, notedToo, noted⟩
    · rw [channel_reset notedToo, channel_reset noted, initialVolume_setVolume, channel_setVolume]
      split
      · next same => rw [same]
      · rfl
    · rw [initialVolume_reset notedToo, initialVolume_reset noted, initialVolume_setVolume]

theorem reset_reset_like (noted : session.volumes.keys.Nodup) :
    session.reset.reset.Like session.reset := by
  have notedToo : session.reset.volumes.keys.Nodup := noted
  refine ⟨rfl, rfl, rfl, rfl, fun id => ?_, initialVolume_reset notedToo, notedToo, noted⟩
  rw [channel_reset notedToo, initialVolume_reset noted, channel_reset noted]

theorem reset_addChannel_like (like : session.reset.Like other) (channel : Channel α) :
    (session.addChannel channel).reset.Like (other.addChannel channel) := by
  have noted : session.volumes.keys.Nodup := like.noted.1
  have notedToo : (session.addChannel channel).volumes.keys.Nodup :=
    Table.nodup_keys_put noted _ _
  have notedOther := (like.addChannel channel).noted.2
  refine ⟨like.base, like.active, like.timeline, like.start, fun id => ?_, fun id => ?_, notedToo,
    notedOther⟩
  · rw [channel_reset notedToo, initialVolume_addChannel, channel_addChannel, channel_addChannel,
      ← like.channel, channel_reset noted]
    split <;> rfl
  · rw [initialVolume_reset notedToo, initialVolume_addChannel, initialVolume_addChannel,
      ← like.initialVolume, initialVolume_reset noted]

/-- It makes no difference whether a session is configured before it is reset or afterwards. -/
theorem reset_configured_like (like : session.reset.Like other) (config : Json) (base : Path) :
    (session.configured config base).1 = (other.configured config base).1 ∧
      (session.configured config base).2.reset.Like (other.configured config base).2 :=
  configured_related (fun session other => session.reset.Like other)
    (fun base like => like.withBase base)
    (fun channel like => reset_addChannel_like like channel) like config base

end Session

def Json.withoutClips : Json → Json
  | .object members => .object (Table.erase "tracks" members)
  | config => config

theorem Session.channelsOf_withoutClips (config : Json) :
    channelsOf config.withoutClips = channelsOf config := by
  have channels : ∀ members : List (String × Json), channelsOf (.object members) =
      membersOf ((Table.find? "channels" members).getD .null) := by
    rintro (_ | _) <;> rfl
  cases config with
  | object members =>
    rw [Json.withoutClips, channels, channels, Table.find?_erase, if_neg (by decide)]
  | _ => rfl

namespace Studio

theorem clipsOf_withoutClips {config : Json} {channels : List (String × Json)}
    (told : Session.channelsOf config = .ok channels) : clipsOf config.withoutClips = .ok [] := by
  cases config with
  | object members =>
    have clips : ∀ members : List (String × Json), clipsOf (.object members) =
        Session.itemsOf ((Table.find? "tracks" members).getD .null) := by
      rintro (_ | _) <;> rfl
    rw [Json.withoutClips, clips, Table.find?_erase, if_pos rfl]
    rfl
  | _ =>
    -- What is not an object can only be a configuration if it counts as none.
    unfold Session.channelsOf at told
    split at told
    · cases told
    · next none => exact if_neg none

theorem Operation.configure_withoutClips {config : Json} {base : Path} {studio : Studio α}
    (done : (studio.session.configured config base).1 = .ok ()) :
    (configure config.withoutClips base).answer studio.clock studio = .ok .done ∧
      (configure config.withoutClips base).after studio.clock studio =
        { studio with session := (studio.session.configured config base).2 } := by
  have same : studio.session.configured config.withoutClips base =
      studio.session.configured config base := by
    unfold Session.configured
    rw [Session.channelsOf_withoutClips]
  have clips : clipsOf config.withoutClips = .ok [] := by
    unfold Session.configured at done
    cases told : Session.channelsOf config with
    | ok channels => exact clipsOf_withoutClips told
    | error failure =>
      rw [told] at done
      cases done
  unfold answer after work
  rw [Work.after_bind_pure, Work.result_bind, configure_eq, Work.after_get_bind,
    Work.result_get_bind, same, done, clips]
  exact ⟨rfl, rfl⟩

def Accepts (studio : Studio α) : List (α × Operation α) → Prop
  | [] => True
  | (clock, operation) :: rest =>
    (∀ config base, operation = .configure config base →
      operation.answer clock studio = .ok .done) ∧ (operation.after clock studio).Accepts rest

/-- The configurations among some operations, without their clips, all at one reading of the
clock. -/
def configurations (clock : α) (operations : List (α × Operation α)) : List (α × Operation α) :=
  operations.filterMap fun (_, operation) =>
    match operation with
    | .configure config base => some (clock, .configure config.withoutClips base)
    | _ => none

omit [Number α] in
theorem configurations_configure (clock reading : α) (config : Json) (base : Path)
    (rest : List (α × Operation α)) :
    configurations clock ((reading, .configure config base) :: rest) =
      (clock, .configure config.withoutClips base) :: configurations clock rest := rfl

def anew (clock : α) (studio : Studio α) : Studio α :=
  { studio with session := .new, host := { studio.host with known := [] }, clock }

theorem Operation.configured_of_answer {config : Json} {base : Path} {clock : α}
    {studio : Studio α} (accepted : (configure config base).answer clock studio = .ok .done) :
    (studio.session.configured config base).1 = .ok () := by
  unfold answer work at accepted
  rw [Work.result_bind] at accepted
  split at accepted
  · next done => exact (configure_session config base { studio with clock }).2 done
  · cases accepted

/-- Nothing but a configuration makes a difference to what a reset leaves. -/
theorem Operation.after_reset_like {operation : Operation α}
    (other : ∀ config base, operation ≠ .configure config base) (clock : α) {studio : Studio α}
    {session : Session α} (like : studio.session.reset.Like session) :
    (operation.after clock studio).session.reset.Like session := by
  have noted : studio.session.volumes.keys.Nodup := like.noted.1
  cases operation with
  | configure config base => exact absurd rfl (other config base)
  | move made =>
    rw [after_move]
    cases isBegin : made.isBegin with
    | true =>
      obtain rfl := Move.eq_begin isBegin
      exact like
    | false => exact ((Move.step isBegin clock studio).reset_like noted).trans like
  | compile video videoLength =>
    rw [after_compile]
    exact like
  | render video output =>
    rw [after_render]
    exact like
  | reset =>
    rw [after_reset]
    exact (Session.reset_reset_like noted).trans like

/-- Through any history without a failing configuration, a studio that is told the configurations
alone comes out as the other one does when it is reset. -/
theorem perform_configurations {studio other : Studio α}
    (like : studio.session.reset.Like other.session) {history : List (α × Operation α)}
    (accepts : studio.Accepts history) :
    (∀ answer ∈ other.answers (configurations other.clock history), answer = .ok .done) ∧
      ∃ session, other.perform (configurations other.clock history) = { other with session } ∧
        (studio.perform history).session.reset.Like session := by
  -- The other studio only moves on a configuration; what it hands on is what a reset would leave.
  induction history generalizing studio other with
  | nil => exact ⟨fun _ none => (List.not_mem_nil none).elim, other.session, rfl, like⟩
  | cons first rest ih =>
    obtain ⟨clock, operation⟩ := first
    obtain ⟨accepted, acceptsRest⟩ := accepts
    cases operation with
    | configure config base =>
      obtain ⟨events, configured⟩ := Operation.after_configure config base clock studio
      obtain ⟨same, alike⟩ := Session.reset_configured_like like config base
      have done : (other.session.configured config base).1 = .ok () :=
        same ▸ Operation.configured_of_answer (accepted config base rfl)
      obtain ⟨answered, after⟩ := Operation.configure_withoutClips done
      have alikeNow : ((Operation.configure config base).after clock studio).session.reset.Like
          (other.session.configured config base).2 := by
        rw [configured]
        exact alike
      obtain ⟨answers, told⟩ := @ih _ { other with session := _ } alikeNow acceptsRest
      rw [configurations_configure, Studio.answers, perform_cons, answered, after]
      exact ⟨List.forall_mem_cons.mpr ⟨rfl, answers⟩, told⟩
    | _ => exact ih (Operation.after_reset_like (by rintro _ _ ⟨⟩) clock like) acceptsRest

/-- A studio that is reset cannot be told from a new one on the same host that has been told the
configurations again, without their clips. Whatever was done before, as long as no configuration
failed, and whatever is done with both afterwards: they give the same answers and differ in their
sessions at most, and these show the same timeline, the same clips playing, the same channels and
the same mix. -/
theorem reset_like_new (studio : Studio α) (history : List (α × Operation α))
    (accepts : ({ studio with session := .new } : Studio α).Accepts history) (clock : α)
    (further : List (α × Operation α)) :
    let before := ({ studio with session := .new } : Studio α).perform history
    let again := Operation.reset.after clock before
    let fresh := (before.anew clock).perform (configurations clock history)
    (∀ answer ∈ (before.anew clock).answers (configurations clock history), answer = .ok .done) ∧
      again.answers further = fresh.answers further ∧
      (∃ session, again.perform further = { fresh.perform further with session }) ∧
      let left := (again.perform further).session
      let right := (fresh.perform further).session
      left.timeline = right.timeline ∧ left.active = right.active ∧
        (∀ id, left.channel id = right.channel id) ∧
        ∀ video videoLength, left.mix video videoLength = right.mix video videoLength := by
  intro before again fresh
  have start : ({ studio with session := .new } : Studio α).session.reset.Like
      (before.anew clock).session := .refl List.nodup_nil
  obtain ⟨accepted, session, told, like⟩ := perform_configurations start accepts
  have alike : again.Like fresh := by
    have told : fresh = { before.anew clock with session } := told
    rw [told]
    exact ⟨before.session.reset, rfl, like⟩
  obtain ⟨same, left, shown, likeAfter⟩ := alike.perform further
  refine ⟨accepted, same, ⟨left, shown⟩, ?_⟩
  rw [shown]
  exact ⟨likeAfter.timeline, likeAfter.active, likeAfter.channel, likeAfter.mix⟩

/-- A channel is configured and changed in volume, another one only changed. -/
theorem reset_like_new_softer :
    let studio : Studio Float := { settings := {}, host := {}, session := .new, clock := 0 }
    let history : List (Float × Operation Float) :=
      [(1, .configure (.object [("channels", .object [("2", .object [])])]) ⟨.here, []⟩),
        (2, .move .begin), (3, .move (.volume 2 0.5 0)), (4, .move (.volume 3 0.25 100))]
    let further : List (Float × Operation Float) :=
      [(6, .move .begin), (7, .move (.volume 3 0.75 0))]
    let before := studio.perform history
    let again := Operation.reset.after 5 before
    let fresh := (before.anew 5).perform (configurations 5 history)
    studio.Accepts history ∧ again.answers further = fresh.answers further ∧
      ∀ id, (again.perform further).session.channel id =
        (fresh.perform further).session.channel id := by
  intro studio history further before again fresh
  have accepts : studio.Accepts history :=
    ⟨fun _ _ _ => rfl, fun _ _ _ => rfl, fun _ _ _ => rfl, fun _ _ _ => rfl, trivial⟩
  obtain ⟨_, same, _, _, _, channels, _⟩ := reset_like_new studio history accepts 5 further
  exact ⟨accepts, same, channels⟩

end Studio

end Screencast
