import Screencast.Proofs.Audio.Operation
import Screencast.Proofs.Media.Remembering

/-!
Probing before rendering. Each stage of rendering looks at its video once, whatever is remembered of
it, and does the rest with what this look told. With what holds of the memory itself this is all
that is ever asked about media files.
-/

namespace Screencast

variable {α β γ : Type}

def Host.knowing (facts : Facts α) (known : Table String (MediaInfo α)) (looked : List String)
    (host : Host α) : Host α :=
  { host with facts, known, looked }

/-- Whether a job asks nothing about media files: it comes to the same wherever the facts are taken
from and whatever is known of them, leaves all this alone, and looks at no file. -/
structure Job.AsksNothing (job : Job α β) : Prop where
  ignores : ∀ facts known looked, job.Ignores (Host.knowing facts known looked)
  looks : ∀ host, Media.Looks.on (job.after host) = Media.Looks.on host

structure Work.AsksNothing (work : Work α β) : Prop where
  respects : ∀ facts known looked, work.Respects (fun studio other =>
    other = { studio with host := studio.host.knowing facts known looked }) work
  looks : ∀ studio, Media.Looks.on (work.after studio).host = Media.Looks.on studio.host

theorem Job.ofAct_bind (first : Act α β) (next : β → Act α γ) :
    (Job.ofAct (first >>= next) : Job α γ) =
      Job.ofAct first >>= fun value => Job.ofAct (next value) := by
  rfl

namespace Job.AsksNothing

open Media

theorem of_pure (value : β) : (pure value : Job α β).AsksNothing :=
  ⟨fun _ _ _ => .of_pure value, fun _ => rfl⟩

theorem of_throw (failure : Failure) : (throw failure : Job α β).AsksNothing :=
  ⟨fun _ _ _ => .of_throw failure, fun _ => rfl⟩

theorem of_except (result : Except Failure β) : (liftM result : Job α β).AsksNothing := by
  cases result with
  | ok value => exact of_pure value
  | error failure => exact of_throw failure

theorem of_bind {first : Job α β} {next : β → Job α γ} (asks : first.AsksNothing)
    (rest : ∀ value, (next value).AsksNothing) : (first >>= next).AsksNothing := by
  refine ⟨fun facts known looked => .of_bind (asks.ignores facts known looked) fun value =>
    (rest value).ignores facts known looked, fun host => ?_⟩
  rw [after_bind]
  split
  · exact ((rest _).looks _).trans (asks.looks host)
  · exact asks.looks host

theorem of_act_bind {first : Act α β} {next : β → Act α γ} (asks : (Job.ofAct first).AsksNothing)
    (rest : ∀ value, (Job.ofAct (next value)).AsksNothing) :
    (Job.ofAct (first >>= next)).AsksNothing := by
  rw [Job.ofAct_bind]
  exact .of_bind asks rest

theorem of_run {job : Job α β} (asks : job.AsksNothing) : (Job.ofAct job.run).AsksNothing := by
  refine ⟨fun facts known looked host => ?_, asks.looks⟩
  obtain ⟨same, after⟩ := asks.ignores facts known looked host
  exact ⟨congrArg Except.ok same, after⟩

/-- Only the probe notes that a file is not there. -/
theorem of_log {logger : String} (other : Log.loggerName logger ≠ Log.loggerName Media.logger)
    (level : Log.Level) (words : List Log.Word) :
    (Job.ofAct (Host.log level logger words) : Job α Unit).AsksNothing := by
  have unmissed : missed? ⟨level, Log.loggerName logger, words⟩ = none := by
    unfold missed?
    split
    · exact if_neg other
    · rfl
  refine ⟨fun _ _ _ _ => ⟨rfl, rfl⟩, fun host => (Looks.on_log level logger words host).trans ?_⟩
  rw [unmissed]
  exact Looks.append_nil _

theorem of_start {command : List String} {timeout : Json}
    (other : asked? ⟨command, timeout⟩ = none) :
    (Job.ofAct (Host.start command timeout) : Job α Ending).AsksNothing := by
  refine ⟨fun _ _ _ _ => ⟨rfl, rfl⟩, fun host => (Looks.on_start command timeout host).trans ?_⟩
  rw [other]
  exact Looks.append_nil _

theorem of_copy (source target : Path) :
    (Job.ofAct (Host.copy source target) : Job α (Except Failure Unit)).AsksNothing := by
  constructor
  · intro facts known looked host
    have same : Host.copy source target (host.knowing facts known looked) =
        ((Host.copy source target host).1,
          (Host.copy source target host).2.knowing facts known looked) := by
      have disk : (host.knowing facts known looked).disk = host.disk := rfl
      unfold Host.copy
      rw [disk]
      cases host.disk.copy source target <;> rfl
    refine ⟨?_, congrArg Prod.snd same⟩
    change Except.ok (Host.copy source target _).1 = Except.ok (Host.copy source target host).1
    rw [same]
  · intro host
    change Looks.on (Host.copy source target host).2 = _
    unfold Host.copy
    split <;> rfl

theorem of_get {next : Host α → Job α β}
    (same : ∀ facts known looked host, next (Host.knowing facts known looked host) = next host)
    (rest : ∀ host, (next host).AsksNothing) : (get >>= next).AsksNothing :=
  ⟨fun facts known looked => .of_get (same facts known looked) fun host =>
    (rest host).ignores facts known looked, fun host => (rest host).looks host⟩

end Job.AsksNothing

namespace Work.AsksNothing

theorem of_ofExcept (result : Except Failure β) : (ofExcept result : Work α β).AsksNothing :=
  ⟨fun _ _ _ => .of_ofExcept rfl, fun _ => rfl⟩

theorem of_bind {first : Work α β} {next : β → Work α γ} (asks : first.AsksNothing)
    (rest : ∀ value, (next value).AsksNothing) : (first >>= next).AsksNothing := by
  refine ⟨fun facts known looked => .of_bind (asks.respects facts known looked) fun value =>
    (rest value).respects facts known looked, fun studio => ?_⟩
  rw [after_bind]
  split
  · exact ((rest _).looks _).trans (asks.looks studio)
  · exact asks.looks studio

theorem of_onHost {job : Job α β} (asks : job.AsksNothing) :
    (Studio.onHost job).AsksNothing := by
  refine ⟨?_, fun studio => asks.looks studio.host⟩
  rintro facts known looked studio _ rfl
  obtain ⟨same, after⟩ := asks.ignores facts known looked studio.host
  exact ⟨same.symm, congrArg (fun host => { studio with host }) after⟩

theorem of_forM {items : List β} {work : β → Work α Unit}
    (asks : ∀ item, (work item).AsksNothing) : (items.forM work).AsksNothing := by
  induction items with
  | nil => exact of_ofExcept (.ok ())
  | cons item rest ih => exact of_bind (asks item) fun _ => ih

theorem of_get {next : Studio α → Work α β}
    (same : ∀ facts known looked studio,
      next { studio with host := Host.knowing facts known looked studio.host } = next studio)
    (rest : ∀ studio, (next studio).AsksNothing) : (get >>= next).AsksNothing := by
  refine ⟨?_, fun studio => (rest studio).looks studio⟩
  rintro facts known looked studio _ rfl
  rw [result_get_bind, result_get_bind, after_get_bind, after_get_bind, same]
  exact (rest studio).respects facts known looked studio _ rfl

end Work.AsksNothing

namespace Render

theorem asksNothing_fail (note text errors : String) :
    (fail note text errors : Job α Completed).AsksNothing :=
  .of_bind (.of_log (by decide) _ _) fun _ => .of_throw _

theorem asksNothing_run {command : List String} {timeout : Json}
    (other : Media.asked? ⟨command, timeout⟩ = none) :
    (run command timeout : Job α Completed).AsksNothing := by
  refine .of_bind (.of_start other) fun ending => ?_
  split
  · exact asksNothing_fail _ _ _
  · exact .of_bind (.of_log (by decide) _ _) fun _ => .of_throw _
  · split
    · exact .of_pure _
    · exact asksNothing_fail _ _ _

theorem asksNothing_reject (stage note errors : String) :
    (Job.ofAct (reject stage note errors) : Job α Result).AsksNothing :=
  .of_act_bind (.of_log (by decide) _ _) fun _ => .of_pure _

theorem asksNothing_invoke {command : List String} {timeout : Json}
    (other : Media.asked? ⟨command, timeout⟩ = none) (output : Path) (stage : String) :
    (Job.ofAct (invoke command timeout output stage) : Job α Result).AsksNothing := by
  refine .of_act_bind (.of_run (asksNothing_run other)) fun ran => ?_
  split
  · exact asksNothing_reject _ _ _
  · change Job.AsksNothing (get >>= fun host => Job.ofAct
      (if host.disk.has output then pure ⟨true, some output, ""⟩ else reject _ _ _))
    refine .of_get (fun _ _ _ _ => rfl) fun host => ?_
    split
    · exact .of_pure _
    · exact asksNothing_reject _ _ _

/-- What the video tool is told begins with an argument that the probe tool is not given. -/
theorem Plan.asked?_command (plan : Plan) (tool : String) (output : Path) (timeout : Json) :
    Media.asked? ⟨plan.command tool output, timeout⟩ = none := by
  obtain ⟨arguments, shape⟩ : ∃ arguments, plan.command tool output =
      tool :: (("-y" :: arguments) ++ [output.toString]) := ⟨_, rfl⟩
  have differs : (("-y" :: arguments) ++ [output.toString]).dropLast ≠ Media.probeArguments := by
    rw [List.dropLast_concat]
    exact fun same => absurd (List.cons.inj same).1 (by decide)
  rw [shape]
  exact if_neg differs

def carryOut (settings : Settings) (plan : Plan) (output : Path) (stage : String) : Job α Bool := do
  let command := plan.command (settings.ffmpeg (← get).programs) output
  return (← Job.ofAct (invoke command settings.renderTimeout output stage)).success

theorem asksNothing_carryOut (settings : Settings) (plan : Plan) (output : Path) (stage : String) :
    (carryOut settings plan output stage : Job α Bool).AsksNothing :=
  .of_get (fun _ _ _ _ => rfl) fun _ =>
    .of_bind (asksNothing_invoke (plan.asked?_command _ _ _) _ _) fun _ => .of_pure _

theorem asksNothing_copyVideo {logger : String}
    (other : Log.loggerName logger ≠ Log.loggerName Media.logger) (input output : Path) :
    (Job.ofAct (copyVideo logger input output) : Job α Bool).AsksNothing := by
  refine .of_act_bind (.of_copy input output) fun copied => ?_
  split
  · exact .of_pure _
  · exact .of_act_bind (.of_log other _ _) fun _ => .of_pure _

end Render

variable [Number α]

namespace Media

def anew (settings : Settings) (path : Path) : Job α (MediaInfo α) := do
  Job.ofAct (forget path)
  renew settings path

theorem forget_probe (settings : Settings) (path : Path) :
    (do Job.ofAct (forget path); probe settings path : Job α (MediaInfo α)) =
      anew settings path := by
  funext host
  have unknown : (host.known.erase path.toString).find? path.toString = none := by
    rw [Table.find?_erase, if_pos rfl]
  exact @run_probe_of_unknown _ _ settings path ((forget path).run host).2 unknown

theorem result_anew (settings : Settings) (path : Path) (known : Table String (MediaInfo α))
    (host : Host α) :
    (anew settings path).result { host with known } = (look settings path).result host := by
  change (renew settings path).result { host with known := known.erase path.toString } = _
  rw [result_renew]
  exact (look_ignores settings path _ host.homes host).1

theorem find?_anew {settings : Settings} {path : Path} {host : Host α} {info : MediaInfo α}
    (told : (anew settings path).result host = .ok info) :
    ((anew settings path).after host).known.find? path.toString = some info := by
  change (renew settings path).result ((forget path).run host).2 = _ at told
  change ((renew settings path).after ((forget path).run host).2).known.find? _ = _
  rw [result_renew] at told
  rw [known_renew, told, Table.find?_put, if_pos rfl]

/-- After a look at a file it need not be asked about once more. -/
theorem anew_probe (settings : Settings) (path : Path)
    (next : MediaInfo α → MediaInfo α → Job α β) :
    (do
      let info ← anew settings path
      let again ← probe settings path
      next info again) = (do
      let info ← anew settings path
      next info info) := by
  funext host
  change (anew settings path >>= fun info => probe settings path >>= next info).run.run host =
    (anew settings path >>= fun info => next info info).run.run host
  have known : ∀ info, ((anew settings path).run.run host).1 = .ok info →
      ((anew settings path).run.run host).2.known.find? path.toString = some info :=
    fun _ told => find?_anew told
  rw [ExceptT.run_bind, ExceptT.run_bind, StateT.run_bind, StateT.run_bind]
  generalize (anew settings path).run.run host = ran at known ⊢
  rcases ran with ⟨failure | info, after⟩
  · rfl
  · change (probe settings path >>= next info).run.run after = (next info info).run.run after
    rw [Job.run_bind_of_ok (run_probe_of_some (known info rfl))]

end Media

/-- Whether a job looks at a file, once, and at no other, whatever is known of media files. Of these
it uses only what it was told then. -/
structure Job.LooksOnce (settings : Settings) (path : Path) (job : Job α β) : Prop where
  looks : ∀ host, Media.Looks.on (job.after host) =
    Media.Looks.on host ++ Media.Looks.one path host
  told : ∃ rest : MediaInfo α → Job α β, (∀ info, (rest info).AsksNothing) ∧
    job = Media.anew settings path >>= rest

structure Work.LooksOnce (path : Path) (work : Work α β) : Prop where
  looks : ∀ studio, Media.Looks.on (work.after studio).host =
    Media.Looks.on studio.host ++ Media.Looks.one path studio.host
  told : ∃ rest : Settings → MediaInfo α → Work α β,
    (∀ settings info, (rest settings info).AsksNothing) ∧ work = do
      let settings := (← get).settings
      let info ← Studio.onHost (Media.anew settings path)
      rest settings info

namespace Media

theorem looks_anew (settings : Settings) (path : Path) (host : Host α) :
    Looks.on ((anew settings path).after host) = Looks.on host ++ Looks.one path host := by
  change Looks.on ((renew settings path).after ((forget path).run host).2) = _
  rw [looks_renew, looks_look]
  rfl

theorem looksOnce_anew_bind {settings : Settings} {path : Path} {rest : MediaInfo α → Job α β}
    (asks : ∀ info, (rest info).AsksNothing) :
    (anew settings path >>= rest).LooksOnce settings path := by
  refine ⟨fun host => ?_, rest, asks, rfl⟩
  rw [Job.after_bind]
  split
  · exact ((asks _).looks _).trans (looks_anew settings path host)
  · exact looks_anew settings path host

theorem looksOnce_onHost_anew {path : Path} {rest : Settings → MediaInfo α → Work α β}
    (asks : ∀ settings info, (rest settings info).AsksNothing) :
    Work.LooksOnce path (do
      let settings := (← get).settings
      let info ← Studio.onHost (anew settings path)
      rest settings info) := by
  refine ⟨fun studio => ?_, rest, asks, rfl⟩
  have anewLooks : Looks.on ((Studio.onHost (anew studio.settings path)).after studio).host =
      Looks.on studio.host ++ Looks.one path studio.host :=
    looks_anew studio.settings path studio.host
  rw [Work.after_get_bind]
  dsimp only
  rw [Work.after_bind]
  split
  · exact ((asks studio.settings _).looks _).trans anewLooks
  · exact anewLooks

end Media

namespace Studio

def join (settings : Settings) (video output : Path) (length : α) : Work α Bool := do
  let mix ← compile video (some (length / 1000))
  onHost <|
    if mix.hasAudio then Render.carryOut settings (.ofMix settings mix) output "mix"
    else Job.ofAct (Render.copyVideo logger video output)

omit [Number α] in
theorem onHost_bind (first : Job α β) (next : β → Job α γ) :
    (onHost (first >>= next) : Work α γ) = onHost first >>= fun value => onHost (next value) := by
  funext studio
  have run : ∀ {δ : Type} (job : Job α δ), (onHost job).run.run studio =
      ((job.run.run studio.host).1, { studio with host := (job.run.run studio.host).2 }) :=
    fun _ => rfl
  change (onHost (first >>= next)).run.run studio =
    (onHost first >>= fun value => onHost (next value)).run.run studio
  rw [run, ExceptT.run_bind, StateT.run_bind, ExceptT.run_bind, StateT.run_bind, run]
  rcases first.run.run studio.host with ⟨failure | value, between⟩ <;> rfl

omit [Number α] in
theorem ofAct_rendering (settings : Settings) (mix : Mix) (video output : Path) :
    (Job.ofAct do
      if !mix.hasAudio then Render.copyVideo logger video output
      else
        let plan := Render.Plan.ofMix settings mix
        let command := plan.command (settings.ffmpeg (← get).programs) output
        return (← Render.invoke command settings.renderTimeout output "mix").success :
          Job α Bool) =
      if mix.hasAudio then Render.carryOut settings (.ofMix settings mix) output "mix"
      else Job.ofAct (Render.copyVideo logger video output) := by
  cases mix.hasAudio <;> rfl

theorem render_eq (video output : Path) : (render video output : Work α Bool) = (do
    let settings := (← get).settings
    let info ← onHost (Media.anew settings video)
    join settings video output info.duration) := by
  have lengthOf : ∀ settings : Settings, (onHost (Media.duration settings video) : Work α α) =
      onHost (Media.probe settings video) >>= fun info => pure info.duration :=
    fun settings => onHost_bind _ _
  have looked : ∀ settings : Settings, (onHost (Media.anew settings video) : Work α _) =
      onHost (Job.ofAct (Media.forget video)) >>= fun _ => onHost (Media.probe settings video) :=
    fun settings => by rw [← Media.forget_probe, onHost_bind]
  unfold render join
  simp only [lengthOf, looked, bind_assoc, pure_bind, ofAct_rendering]
  rfl

theorem asksNothing_compile (video : Path) (length : Option α) :
    (compile video length).AsksNothing := by
  refine .of_get (fun _ _ _ _ => rfl) fun studio => ?_
  dsimp only
  exact .of_bind (.of_forM fun file => .of_onHost (.of_log (by decide) _ _)) fun _ => .of_ofExcept _

theorem asksNothing_join (settings : Settings) (video output : Path) (length : α) :
    (join settings video output length).AsksNothing := by
  refine .of_bind (asksNothing_compile video _) fun mix => .of_onHost ?_
  split
  · exact Render.asksNothing_carryOut _ _ _ _
  · exact Render.asksNothing_copyVideo (by decide) _ _

end Studio

namespace Render.Viewport

theorem asksNothing_film (settings : Settings) (input output : Path) (track : Track α)
    (commands : List (Command α)) (size : Int × Int) (length : α) :
    (film settings input output track commands size length).AsksNothing := by
  have seconds : (Job.ofAct (secondsOf input length) : Job α α).AsksNothing := by
    unfold secondsOf
    dsimp only
    split
    · exact .of_act_bind (.of_log (by decide) _ _) fun _ => .of_pure _
    · exact .of_pure _
  refine .of_bind seconds fun seconds => .of_bind (.of_except _) fun frames => ?_
  split
  · exact asksNothing_copyVideo (by decide) _ _
  · refine .of_bind (.of_except _) fun crop => .of_bind (.of_except _) fun filter => ?_
    exact asksNothing_carryOut settings (.ofCrop input filter) output "crop"

theorem apply_eq (settings : Settings) (input output : Path) (track : Track α)
    {commands : List (Command α)} (some_command : commands ≠ [])
    (resolution : Option (Int × Int)) :
    apply settings input output track commands resolution = (do
      let info ← Media.anew settings input
      let default := resolution.getD (settings.defaultWidth, settings.defaultHeight)
      film settings input output track commands (info.size?.getD default) info.duration) := by
  have isEmpty : commands.isEmpty = false := by simpa using some_command
  unfold apply Media.resolution Media.duration
  rw [isEmpty]
  simp only [Bool.false_eq_true, if_false, bind_assoc, pure_bind]
  let default := resolution.getD (settings.defaultWidth, settings.defaultHeight)
  refine Eq.trans ?_ (Media.anew_probe settings input fun info again =>
    film settings input output track commands (info.size?.getD default) again.duration)
  rw [← Media.forget_probe]
  simp only [bind_assoc]
  rfl

end Render.Viewport

namespace Media

/-- The memory of media files does not show. A file is looked at once when it is asked about for the
first time since it was forgotten, and at no other time: then the answer is that of the last look.
What is asked about other files changes neither the looks at a file nor the answers about it. Each
stage of rendering that has to know its video looks at it once and at no other file, whatever was
known of it. -/
theorem memory_transparent (settings : Settings) :
    (∀ (turns : List (Turn α)) (path : Path) (host : Host α),
      let entries := history settings [] turns
      let met : Host α := { host with known := remembered settings [] turns }
      (Entry.Fresh path.toString entries ∧
          (probe settings path).run.run met = (renew settings path).run.run met ∧
          Looks.on ((probe settings path).after met) = Looks.on met ++ Looks.one path met) ∨
        (¬ Entry.Fresh path.toString entries ∧
          ∃ info, Entry.lastLook? path.toString entries = some (.ok info) ∧
            (probe settings path).run.run met = (.ok info, met))) ∧
    (∀ (turns : List (Turn α)) key,
      (history settings [] turns).filter (·.request.concerns key) =
        history settings [] (turns.filter (·.request.concerns key))) ∧
    (∀ path known (host : Host α), (anew settings path).result ({ host with known } : Host α) =
      (look settings path).result host) ∧
    (∀ video output, (Studio.render video output : Work α Bool).LooksOnce video) ∧
    ∀ input output (track : Track α) commands resolution, commands ≠ [] →
      (Render.Viewport.apply settings input output track commands resolution).LooksOnce
        settings input := by
  refine ⟨probe_after settings, fun turns key => filter_history rfl turns, result_anew settings,
    fun video output => ?_, fun input output track commands resolution some_command => ?_⟩
  · rw [Studio.render_eq]
    exact looksOnce_onHost_anew fun settings info =>
      Studio.asksNothing_join settings video output info.duration
  · rw [Render.Viewport.apply_eq settings input output track some_command]
    exact looksOnce_anew_bind fun info => Render.Viewport.asksNothing_film _ _ _ _ _ _ _

def cataloguing (length : Rat) : Host Rat where
  facts := .catalogue [("clip", ⟨length, none, none⟩)]

/-- A clip that is recorded once more is as long as it was, until it is forgotten. Where the probe
tool tells it, rendering starts this tool once, even if the length is known. -/
theorem memory_transparent_recorded_anew :
    let other : Path := ⟨.root, ["other"]⟩
    let played : Host Rat :=
      { disk := [(["clip"], .file "")], known := [(clip.toString, ⟨1000, none, none⟩)],
        outcomes := [.exited 0 "\x7b\x7d" "" none] }
    let turns : List (Turn Rat) :=
      [⟨.probe clip, cataloguing 1000⟩, ⟨.forget other, cataloguing 2000⟩]
    let answer (turns : List (Turn Rat)) := (probe {} clip).result
      ({ cataloguing 2000 with known := remembered {} [] turns } : Host Rat)
    answer turns = .ok ⟨1000, none, none⟩ ∧
      answer (turns ++ [⟨.forget clip, cataloguing 2000⟩]) = .ok ⟨2000, none, none⟩ ∧
      Looks.on ((Render.Viewport.apply {} clip other [] [.hold 0 1] none).after played) =
        ⟨[clip.toString], [], []⟩ := by
  intro other played turns answer
  obtain ⟨probes, _, _, _, applies⟩ := memory_transparent (α := Rat) {}
  refine ⟨?_, ?_, (applies clip other [] [.hold 0 1] none (List.cons_ne_nil _ _)).looks played⟩
  · have last : Entry.lastLook? clip.toString (history {} [] turns) =
        some (.ok ⟨1000, none, none⟩) := by rfl
    have since : Entry.since clip.toString (history {} [] turns) =
        [.forgot other, .answered clip (.ok ⟨1000, none, none⟩) true] := by rfl
    obtain ⟨fresh, -⟩ | ⟨-, info, told, run⟩ := probes turns clip (cataloguing 2000)
    · exact absurd (fresh _ (since ▸ List.mem_cons_of_mem _ List.mem_cons_self)) (by decide)
    · rw [last] at told
      cases told
      exact congrArg Prod.fst run
  · have since : Entry.since clip.toString
        (history {} [] (turns ++ [⟨.forget clip, cataloguing 2000⟩])) = [] := by rfl
    obtain ⟨-, run, -⟩ | ⟨stale, -⟩ :=
      probes (turns ++ [⟨.forget clip, cataloguing 2000⟩]) clip (cataloguing 2000)
    · exact congrArg Prod.fst run
    · exact absurd (fun entry member => absurd (since ▸ member) List.not_mem_nil) stale

end Media

end Screencast
