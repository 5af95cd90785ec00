import Screencast.Media.Probe
import Screencast.Proofs.Json.Reading
import Screencast.Proofs.Json.Refusing
import Screencast.Proofs.Media.Info

/-!
What asking about a media file gives, whatever the probe tool does. A tool that cannot be started,
that gives up or that writes no document is no failure: nothing is known of the file then. Only a
document that is not regular is one, and what is known has both sides of the picture or neither.
-/

namespace Screencast

variable {α β γ : Type}

namespace Disk

inductive Fault : Failure → Prop
  | noSuchFile : Fault .noSuchFile
  | isFolder : Fault .isFolder
  | notFolder : Fault .notFolder

theorem step_failsBy (disk : Disk) (here : Place) (name : String) :
    FailsBy Fault (disk.step here name) := by
  unfold step
  split
  · exact .of_error .noSuchFile
  · exact .of_error .notFolder
  · exact .of_ok _

theorem write_failsBy (disk : Disk) (path : Path) (text : String) :
    FailsBy Fault (disk.write path text) := by
  refine .of_bind (.of_foldlM disk.step_failsBy _ _) fun place => ?_
  split
  · exact .of_error .isFolder
  · exact .of_ok _

end Disk

namespace Job

def result (job : Job α β) (host : Host α) : Except Failure β :=
  (job.run.run host).1

def after (job : Job α β) (host : Host α) : Host α :=
  (job.run.run host).2

theorem run_bind_of_ok {first : Job α β} {host after : Host α} {value : β}
    (ran : first.run.run host = (.ok value, after)) (next : β → Job α γ) :
    (first >>= next).run.run host = (next value).run.run after := by
  rw [ExceptT.run_bind, StateT.run_bind, ran]
  rfl

theorem run_get_bind (next : Host α → Job α β) (host : Host α) :
    (get >>= next).run.run host = (next host).run.run host := by
  rfl

end Job

namespace Media

variable {settings : Settings} {path : Path} {host : Host α}

def ending (settings : Settings) (path : Path) (host : Host α) : Ending :=
  (Host.settle host.disk (probeCommand (settings.ffprobe host.programs) path)
    (host.outcomes.head?.getD Host.defaultOutcome)).1

theorem documentOf_exited_ne_timedOut (code : Int) (output errors : String) :
    documentOf (.exited code output errors) ≠ .error .timedOut := by
  unfold documentOf
  dsimp only
  split
  · exact fun failed => nomatch Json.parse_failsBy output _ failed
  · exact nofun

theorem documentOf_ending_ne_timedOut (inTime : host.outcomes.head? ≠ some .timedOut) :
    documentOf (ending settings path host) ≠ .error .timedOut := by
  unfold ending
  cases outcome : host.outcomes.head?.getD Host.defaultOutcome with
  | timedOut =>
    cases first : host.outcomes.head? with
    | none =>
      rw [first] at outcome
      cases outcome
    | some other =>
      rw [first] at outcome inTime
      exact absurd (congrArg some outcome) inTime
  | refused text => exact nofun
  | exited code output errors created =>
    cases created with
    | none => exact documentOf_exited_ne_timedOut code output errors
    | some text =>
      unfold Host.settle
      dsimp only
      split
      · exact documentOf_exited_ne_timedOut code output errors
      · next failure failed =>
        rintro ⟨⟩
        exact nomatch Disk.write_failsBy _ _ _ _ failed

/-- The document that the tool gives about a file of which nothing is known yet. -/
def document? (settings : Settings) (path : Path) (host : Host α) : Option Json :=
  if host.known.find? path.toString = none ∧ host.disk.has path = true then
    (documentOf (ending settings path host)).toOption
  else none

theorem document?_of_some {info : MediaInfo α}
    (found : host.known.find? path.toString = some info) :
    document? settings path host = none := by
  unfold document?
  rw [found]
  exact if_neg fun unknown => nomatch unknown.1

theorem document?_of_missing (missing : host.disk.has path = false) :
    document? settings path host = none := by
  unfold document?
  rw [missing]
  exact if_neg fun has => nomatch has.2

theorem document?_of_has (unknown : host.known.find? path.toString = none)
    (has : host.disk.has path = true) :
    document? settings path host = (documentOf (ending settings path host)).toOption :=
  if_pos ⟨unknown, has⟩

def KnowsPaired (host : Host α) : Prop :=
  ∀ key info, host.known.find? key = some info → info.Paired

theorem KnowsPaired.forget (paired : KnowsPaired host) (path : Path) :
    KnowsPaired ((forget path).run host).2 := by
  intro key info found
  change (host.known.erase path.toString).find? key = some info at found
  rw [Table.find?_erase] at found
  split at found
  · cases found
  · exact paired key info found

variable [Number α]

def asked (settings : Settings) (path : Path) (host : Host α) : Host α :=
  ((Host.start (probeCommand (settings.ffprobe host.programs) path) .null).run host).2

def answer (path : Path) (ending : Ending) : Job α (MediaInfo α) :=
  match documentOf ending with
  | .ok document => MediaInfo.ofJson document
  | .error .timedOut => throw .timedOut
  | .error cause => Job.ofAct (giveUp path cause)

theorem run_ask_of_missing (settings : Settings) (missing : host.disk.has path = false) :
    ∃ after, (ask settings path).run.run host = (.ok .unknown, after) ∧
      after.known = host.known := by
  unfold ask
  rw [Job.run_get_bind, missing]
  exact ⟨_, rfl, rfl⟩

theorem run_ask_of_has (has : host.disk.has path = true) :
    (ask settings path).run.run host =
      (answer path (ending settings path host)).run.run (asked settings path host) := by
  unfold ask
  rw [Job.run_get_bind, has]
  rfl

theorem result_answer {ending : Ending} (inTime : documentOf ending ≠ .error .timedOut) :
    (answer path ending).result host =
      match documentOf ending with
      | .ok document => MediaInfo.ofJson document
      | .error _ => .ok .unknown := by
  unfold answer
  split
  · next same =>
    rw [same]
    rfl
  · next same => exact absurd same inTime
  · next same =>
    rw [same]
    rfl

theorem known_answer (ending : Ending) :
    ((answer path ending).after host).known = host.known := by
  unfold answer
  split <;> rfl

theorem result_ask_of_missing (missing : host.disk.has path = false) :
    (ask settings path).result host = .ok .unknown := by
  obtain ⟨after, run, -⟩ := run_ask_of_missing settings missing
  rw [Job.result, run]

theorem known_ask : ((ask settings path).after host).known = host.known := by
  unfold Job.after
  cases has : host.disk.has path with
  | false =>
    obtain ⟨after, run, kept⟩ := run_ask_of_missing settings has
    rw [run, kept]
  | true =>
    rw [run_ask_of_has has]
    exact known_answer _

theorem run_look_of_tool (asks : host.facts = .tool) :
    (look settings path).run.run host = (ask settings path).run.run host := by
  unfold look
  rw [Job.run_get_bind, asks]

theorem run_probe_of_some {info : MediaInfo α}
    (found : host.known.find? path.toString = some info) :
    (probe settings path).run.run host = (.ok info, host) := by
  unfold probe
  rw [Job.run_get_bind, found]
  rfl

theorem run_probe_of_none (unknown : host.known.find? path.toString = none)
    (asks : host.facts = .tool) :
    (probe settings path).run.run host = match (ask settings path).run.run host with
      | (.ok info, after) => (.ok info, { after with known := after.known.put path.toString info })
      | (.error cause, after) => (.error cause, after) := by
  unfold probe
  rw [Job.run_get_bind, unknown]
  dsimp only
  rw [ExceptT.run_bind, StateT.run_bind, run_look_of_tool asks]
  rcases (ask settings path).run.run host with ⟨cause | info, after⟩ <;> rfl

theorem result_probe_of_none (unknown : host.known.find? path.toString = none)
    (asks : host.facts = .tool) :
    (probe settings path).result host = (ask settings path).result host := by
  unfold Job.result
  rw [run_probe_of_none unknown asks]
  rcases (ask settings path).run.run host with ⟨cause | info, after⟩ <;> rfl

theorem known_probe_of_none (unknown : host.known.find? path.toString = none)
    (asks : host.facts = .tool) :
    ((probe settings path).after host).known = match (ask settings path).result host with
      | .ok info => host.known.put path.toString info
      | .error _ => host.known := by
  have kept : ((ask settings path).run.run host).2.known = host.known := known_ask
  unfold Job.after Job.result
  rw [run_probe_of_none unknown asks, ← kept]
  rcases (ask settings path).run.run host with ⟨cause | info, after⟩ <;> rfl

theorem result_ask_of_has (has : host.disk.has path = true)
    (inTime : host.outcomes.head? ≠ some .timedOut) :
    (ask settings path).result host = match documentOf (ending settings path host) with
      | .ok document => MediaInfo.ofJson document
      | .error _ => .ok .unknown := by
  rw [← result_answer (documentOf_ending_ne_timedOut inTime), Job.result, run_ask_of_has has]
  rfl

/-- The hosts on which a probe that knew nothing at first has been at work: it was asked about
files, it forgot some or all of them, and whatever else went on did not touch what it knows. -/
inductive Reached (settings : Settings) : Host α → Prop
  | fresh {host : Host α} (nothing : host.known = []) : Reached settings host
  | probe {host : Host α} (reached : Reached settings host) (asks : host.facts = .tool)
    (path : Path) : Reached settings ((probe settings path).after host)
  | forget {host : Host α} (reached : Reached settings host) (path : Path) :
    Reached settings ((forget path).run host).2
  | forgetAll {host : Host α} (reached : Reached settings host) :
    Reached settings (forgetAll.run host).2
  | elsewhere {host other : Host α} (reached : Reached settings host)
    (same : other.known = host.known) : Reached settings other

theorem paired_of_ask {info : MediaInfo α} (answers : (ask settings path).result host = .ok info) :
    info.Paired := by
  cases has : host.disk.has path with
  | false =>
    rw [result_ask_of_missing has] at answers
    cases answers
    exact MediaInfo.paired_unknown
  | true =>
    rw [Job.result, run_ask_of_has has] at answers
    change (answer path _).result _ = _ at answers
    unfold answer at answers
    split at answers
    · exact MediaInfo.paired_of_ofJson answers
    · cases answers
    · cases answers
      exact MediaInfo.paired_unknown

theorem KnowsPaired.probe (paired : KnowsPaired host) (asks : host.facts = .tool) (path : Path) :
    KnowsPaired ((probe settings path).after host) := by
  intro key info found
  cases known : host.known.find? path.toString with
  | some other =>
    rw [Job.after, run_probe_of_some known] at found
    exact paired key info found
  | none =>
    rw [known_probe_of_none known asks] at found
    cases answers : (ask settings path).result host with
    | error cause =>
      rw [answers] at found
      exact paired key info found
    | ok told =>
      rw [answers] at found
      dsimp only at found
      rw [Table.find?_put] at found
      split at found
      · cases found
        exact paired_of_ask answers
      · exact paired key info found

theorem Reached.knowsPaired (reached : Reached settings host) : KnowsPaired host := by
  induction reached with
  | fresh nothing =>
    intro key info found
    rw [nothing] at found
    cases found
  | probe _ asks path ih => exact ih.probe asks path
  | forget _ path ih => exact ih.forget path
  | forgetAll =>
    intro key info found
    cases found
  | elsewhere _ same ih =>
    unfold KnowsPaired
    rw [same]
    exact ih

/-- A probe has an answer unless the tool gives a document that is not regular. The answer has both
sides of the picture or neither, and without a document nothing is known of the file. -/
theorem probe_answers (reached : Reached settings host) (asks : host.facts = .tool)
    (inTime : host.outcomes.head? ≠ some .timedOut) (path : Path) :
    ((∃ info, (probe settings path).result host = .ok info) ↔
      ∀ document ∈ document? settings path host, MediaInfo.Regular document) ∧
    (∀ info, (probe settings path).result host = .ok info → info.Paired) ∧
    (host.known.find? path.toString = none → document? settings path host = none →
      (probe settings path).result host = .ok .unknown) := by
  cases known : host.known.find? path.toString with
  | some info =>
    -- The tool is not asked, whatever it would write by now.
    have answers : (probe settings path).result host = .ok info := by
      rw [Job.result, run_probe_of_some known]
    rw [answers, document?_of_some known]
    refine ⟨iff_of_true ⟨info, rfl⟩ nofun, ?_, nofun⟩
    rintro _ ⟨⟩
    exact reached.knowsPaired _ info known
  | none =>
    rw [result_probe_of_none known asks]
    refine ⟨?_, fun info => paired_of_ask, fun _ => ?_⟩
    · cases has : host.disk.has path with
      | false =>
        rw [result_ask_of_missing has, document?_of_missing has]
        exact iff_of_true ⟨.unknown, rfl⟩ nofun
      | true =>
        rw [result_ask_of_has has inTime, document?_of_has known has]
        cases documentOf (ending settings path host) with
        | ok document => simp [Except.toOption, MediaInfo.exists_ofJson_iff]
        | error cause => simp [Except.toOption]
    · cases has : host.disk.has path with
      | false => exact fun _ => result_ask_of_missing has
      | true =>
        rw [result_ask_of_has has inTime, document?_of_has known has]
        cases documentOf (ending settings path host) with
        | ok document => exact nofun
        | error cause => exact fun _ => rfl

def writing (output : String) : Host Float where
  disk := [(["clip"], .file "")]
  outcomes := [.exited 0 output "" none]

def clip : Path := ⟨.root, ["clip"]⟩

def video : Json :=
  .object [("streams", .array [.object [("codec_type", .string "video"), ("width", .int 1280),
    ("height", .int 720)]]), ("format", .object [("duration", .float 12.5)])]

theorem legible_video : Json.Legible video := by
  have stream : Json.Legible (.object [("codec_type", .string "video"), ("width", .int 1280),
      ("height", .int 720)]) := by
    apply Json.Legible.of_members (by simp)
    simp only [List.forall_mem_cons]
    exact ⟨⟨by decide, .string (by decide)⟩, ⟨by decide, .int (by decide)⟩,
      ⟨by decide, .int (by decide)⟩, List.forall_mem_nil _⟩
  have format : Json.Legible (.object [("duration", .float 12.5)]) := by
    apply Json.Legible.of_members (by simp)
    simp only [List.forall_mem_cons]
    exact ⟨⟨by decide, .float _⟩, List.forall_mem_nil _⟩
  apply Json.Legible.of_members (by simp)
  simp only [List.forall_mem_cons]
  exact ⟨⟨by decide, .array (by simpa using stream)⟩, ⟨by decide, format⟩, List.forall_mem_nil _⟩

theorem regular_video : MediaInfo.Regular video :=
  MediaInfo.exists_ofJson_iff.mp ⟨(⟨_, some 1280, some 720⟩ : MediaInfo Float), rfl⟩

theorem document?_writing (output : String) :
    document? {} clip (writing output) = (Json.parse output).toOption := by
  rfl

/-- Of a video the tool tells something; of what is no document it tells nothing. -/
theorem probe_answers_each :
    (∃ info, (probe {} clip).result (writing video.indented) = .ok info ∧ info.Paired) ∧
      (probe {} clip).result (writing "[") = .ok .unknown := by
  have inTime : ∀ output, (writing output).outcomes.head? ≠ some .timedOut := fun _ => nofun
  have regular : ∀ document ∈ document? {} clip (writing video.indented),
      MediaInfo.Regular document := by
    rw [document?_writing, Json.parse_indented legible_video]
    rintro _ ⟨⟩
    exact regular_video
  have fresh : ∀ output, Reached {} (writing output) := fun _ => .fresh rfl
  obtain ⟨answers, paired, -⟩ := probe_answers (fresh _) rfl (inTime video.indented) clip
  obtain ⟨-, -, nothing⟩ := probe_answers (fresh _) rfl (inTime "[") clip
  obtain ⟨info, told⟩ := answers.mpr regular
  exact ⟨⟨info, told, paired info told⟩, nothing rfl rfl⟩

/-- A document that is a list is a failure. -/
theorem probe_list_fails : (probe {} clip).result (writing "[]") = .error .missingMember := by
  rfl

end Media

end Screencast
