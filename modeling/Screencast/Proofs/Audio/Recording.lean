import Screencast.Audio.Studio

/-!
Recording: the moves that are made in a studio one after another, each at a reading of the clock. A
move changes the session by one step at most, at the time that the clock showed when the move began,
whatever happens on the host and whether or not the move fails in the end.
-/

namespace Screencast

variable {α β γ : Type}

namespace Work

def after (work : Work α β) (studio : Studio α) : Studio α :=
  (work.run.run studio).2

def result (work : Work α β) (studio : Studio α) : Except Failure β :=
  (work.run.run studio).1

def KeepsSession (work : Work α β) : Prop :=
  ∀ studio, (work.after studio).session = studio.session

theorem after_bind (first : Work α β) (next : β → Work α γ) (studio : Studio α) :
    (first >>= next).after studio =
      match first.result studio with
      | .ok value => (next value).after (first.after studio)
      | .error _ => first.after studio := by
  unfold after result
  rw [ExceptT.run_bind, StateT.run_bind]
  rcases first.run.run studio with ⟨failure | value, between⟩ <;> rfl

theorem result_bind (first : Work α β) (next : β → Work α γ) (studio : Studio α) :
    (first >>= next).result studio =
      match first.result studio with
      | .ok value => (next value).result (first.after studio)
      | .error failure => .error failure := by
  unfold after result
  rw [ExceptT.run_bind, StateT.run_bind]
  rcases first.run.run studio with ⟨failure | value, between⟩ <;> rfl

@[simp] theorem result_ofExcept (result : Except Failure β) (studio : Studio α) :
    (ofExcept result).result studio = result := rfl

@[simp] theorem after_ofExcept (result : Except Failure β) (studio : Studio α) :
    (ofExcept result).after studio = studio := rfl

@[simp] theorem result_onHost (job : Job α β) (studio : Studio α) :
    (Studio.onHost job).result studio = (job studio.host).1 := rfl

@[simp] theorem after_onHost (job : Job α β) (studio : Studio α) :
    (Studio.onHost job).after studio = { studio with host := (job studio.host).2 } := rfl

@[simp] theorem result_change (f : Session α → Session α) (studio : Studio α) :
    (Studio.change f).result studio = .ok () := rfl

@[simp] theorem after_change (f : Session α → Session α) (studio : Studio α) :
    (Studio.change f).after studio = { studio with session := f studio.session } := rfl

theorem result_get_bind (next : Studio α → Work α β) (studio : Studio α) :
    (get >>= next).result studio = (next studio).result studio := rfl

theorem after_get_bind (next : Studio α → Work α β) (studio : Studio α) :
    (get >>= next).after studio = (next studio).after studio := rfl

theorem after_modify_bind (f : Studio α → Studio α) (next : Work α β) (studio : Studio α) :
    (modify f >>= fun _ => next).after studio = next.after (f studio) := rfl

namespace KeepsSession

theorem of_pure (value : β) : (pure value : Work α β).KeepsSession := fun _ => rfl

theorem of_ofExcept (result : Except Failure β) : (ofExcept result : Work α β).KeepsSession :=
  fun _ => rfl

theorem of_onHost (job : Job α β) : (Studio.onHost job).KeepsSession := fun _ => rfl

theorem of_get : (get : Work α (Studio α)).KeepsSession := fun _ => rfl

theorem of_bind {first : Work α β} {next : β → Work α γ} (keeps : first.KeepsSession)
    (rest : ∀ value, (next value).KeepsSession) : (first >>= next).KeepsSession := by
  intro studio
  rw [after_bind]
  split
  · rw [rest, keeps]
  · exact keeps studio

end KeepsSession

end Work

variable [Number α]

namespace Session

theorem channel_setVolume (session : Session α) (time : α) (id : Int) (level ramp : α)
    (other : Int) :
    (session.setVolume time id level ramp).channel other =
      if id = other then { session.channel id with volume := bounded level }
      else session.channel other := by
  unfold Session.channel Channels.get Session.setVolume
  rw [Table.find?_put]
  split <;> rfl

inductive Step (time : α) (session : Session α) : Session α → Prop where
  | idle : Step time session session
  | play (least : α) (id : Int) (cue : Cue α) : Step time session (session.play least time id cue)
  | stop (fadeOut : α) (targets : List Int) : Step time session (session.stop time fadeOut targets)
  | volume (id : Int) (level ramp : α) : Step time session (session.setVolume time id level ramp)

theorem Step.start_eq {time : α} {session next : Session α} (step : Step time session next) :
    next.start = session.start := by
  cases step with
  | idle => rfl
  | play least id cue => rfl
  | volume id level ramp => rfl
  | stop fadeOut targets =>
    unfold Session.stop
    induction targets generalizing session with
    | nil => rfl
    | cons target rest ih => exact ih

end Session

namespace Studio

inductive Move (α : Type) where
  | begin
  | play (request : Request α)
  | stop (id : Option Int) (fadeOut : Option α)
  | volume (id : Int) (level ramp : α)

def Move.isBegin : Move α → Bool
  | begin => true
  | _ => false

omit [Number α] in
theorem Move.eq_begin {move : Move α} (isBegin : move.isBegin = true) : move = .begin := by
  cases move with
  | begin => rfl
  | play request => cases isBegin
  | stop id fadeOut => cases isBegin
  | volume id level ramp => cases isBegin

def Move.after (move : Move α) (clock : α) (studio : Studio α) : Studio α :=
  match move with
  | begin => Studio.begin.after { studio with clock }
  | play request => (Studio.play request).after { studio with clock }
  | stop id fadeOut => (Studio.stop id fadeOut).after { studio with clock }
  | volume id level ramp => (Studio.setVolume id level ramp).after { studio with clock }

/-- The studio after a run of moves, each with the reading of the clock at which it begins. -/
def run (studio : Studio α) (moves : List (α × Move α)) : Studio α :=
  moves.foldl (fun studio (clock, move) => move.after clock studio) studio

theorem wait_keeps (seconds : α) : (wait seconds).KeepsSession := fun _ => rfl

theorem hear_keeps (request : Request α) (file : Path) (length : α) (output : Output) :
    (hear request file length output).KeepsSession := by
  unfold hear
  refine .of_bind .of_get fun studio => ?_
  split
  · split
    · exact .of_pure _
    · next sink _ =>
      have answered : (playLive sink file : Work α Json).KeepsSession := fun _ => rfl
      refine .of_bind answered fun answer => ?_
      split
      · exact .of_bind (.of_ofExcept _) fun _ => wait_keeps _
      · exact .of_pure _
  · split
    · exact wait_keeps _
    · exact .of_pure _

def cue (studio : Studio α) (request : Request α) : Except Failure (Cue α) :=
  (Path.ofMedia studio.host.homes studio.session.base request.file).bind fun file =>
    (Media.duration studio.settings file studio.host).1.map fun length =>
      ⟨file, length, request.fadeIn, request.fadeOut, request.start, request.loop⟩

def leastFade (studio : Studio α) : α := Number.ofInt studio.settings.crossfadeMin

/-- A clip whose cue is given comes into the session once, at the time that the clock showed at
first, whatever becomes of hearing it; without a cue the request fails and nothing comes in. -/
theorem play_session (request : Request α) (studio : Studio α) :
    match studio.cue request with
    | .ok cue => ((play request).after studio).session =
        studio.session.play studio.leastFade studio.now request.channel cue
    | .error failure => (play request).result studio = .error failure ∧
        ((play request).after studio).session = studio.session := by
  have rest : ∀ (file : Path) (length : α),
      (hear request file length (studio.session.channel request.channel).output >>=
        fun _ => pure length).KeepsSession :=
    fun file length => .of_bind (hear_keeps request file length _) fun _ => .of_pure length
  unfold play cue
  rw [Work.after_get_bind, Work.result_get_bind, Work.after_bind, Work.result_bind]
  simp only [Work.result_ofExcept, Work.after_ofExcept]
  cases Path.ofMedia studio.host.homes studio.session.base request.file with
  | error failure => exact ⟨rfl, rfl⟩
  | ok file =>
    simp only [Work.after_bind (onHost _), Work.result_bind (onHost _), Work.result_onHost,
      Work.after_onHost, Except.bind]
    cases (Media.duration studio.settings file studio.host).1 with
    | error failure => exact ⟨rfl, rfl⟩
    | ok length =>
      simp only [Except.map]
      -- The warning of an empty file is all that may still come before the change.
      split
      · rw [Work.after_bind]
        exact rest file length _
      · exact rest file length _

theorem play_step (request : Request α) (studio : Studio α) :
    Session.Step studio.now studio.session ((play request).after studio).session := by
  have played := play_session request studio
  split at played
  · rw [played]
    exact .play ..
  · rw [played.2]
    exact .idle

theorem stop_step (id : Option Int) (fadeOut : Option α) (studio : Studio α) :
    Session.Step studio.now studio.session ((stop id fadeOut).after studio).session := by
  unfold stop change
  rw [Work.after_get_bind, Work.after_modify_bind]
  split
  · exact .stop ..
  · split
    · exact .stop ..
    · exact .stop ..

theorem setVolume_step (id : Int) (level ramp : α) (studio : Studio α) :
    Session.Step studio.now studio.session ((setVolume id level ramp).after studio).session :=
  .volume id level ramp

/-- All moves but the start of the recording are steps of the session. -/
theorem Move.step {move : Move α} (later : move.isBegin = false) (clock : α) (studio : Studio α) :
    Session.Step (studio.session.timeAt clock) studio.session
      (move.after clock studio).session := by
  cases move with
  | begin => cases later
  | play request => exact play_step request { studio with clock }
  | stop id fadeOut => exact stop_step id fadeOut { studio with clock }
  | volume id level ramp => exact setVolume_step id level ramp { studio with clock }

theorem begin_after (clock : α) (studio : Studio α) :
    (Move.begin.after clock studio).session = studio.session.begin clock := rfl

/-- How often the recording has begun, or will begin in the course of some moves. -/
def begins (studio : Studio α) (moves : List (α × Move α)) : Nat :=
  studio.session.start.toList.length + moves.countP (·.2.isBegin)

theorem begins_after {reading : α} {studio : Studio α} {move : Move α} {rest : List (α × Move α)}
    (once : studio.begins ((reading, move) :: rest) ≤ 1) :
    (move.isBegin = true → studio.session.start = none) ∧
      (move.after reading studio).begins rest ≤ 1 := by
  unfold begins at once ⊢
  cases isBegin : move.isBegin with
  | true =>
    obtain rfl := Move.eq_begin isBegin
    rw [List.countP_cons_of_pos (by rfl)] at once
    have fresh : studio.session.start = none := by
      cases start : studio.session.start with
      | none => rfl
      | some start =>
        simp only [start, Option.toList_some, List.length_singleton] at once
        omega
    refine ⟨fun _ => fresh, ?_⟩
    rw [begin_after]
    simp only [fresh, Option.toList_none, List.length_nil] at once
    simp only [Session.begin, Option.toList_some, List.length_singleton]
    omega
  | false =>
    have same := (Move.step isBegin reading studio).start_eq
    rw [List.countP_cons_of_neg (by simp [isBegin])] at once
    refine ⟨fun isTrue => (by cases isTrue), ?_⟩
    rw [same]
    exact once

end Studio

end Screencast
