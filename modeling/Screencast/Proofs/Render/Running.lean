import Screencast.Proofs.Media.Asking
import Screencast.Render.Viewport

/-!
What a stage of rendering says of itself. Whatever becomes of the video tool, a stage that ran it
has started it once and succeeds if and only if it did its work and the output is there; a stage
that has nothing to render copies the video; and a stage that fails says so in the log.
-/

namespace Screencast

variable {α β : Type}

def Host.ending (host : Host α) (command : List String) : Ending :=
  (settle host.disk command (host.outcomes.head?.getD defaultOutcome)).1

def Ending.isSuccess : Ending → Bool
  | exited code _ _ => code = 0
  | _ => false

def Host.Logs (before after : Host α) : Prop :=
  ∃ records, after = { before with records := before.records ++ records }

theorem Host.Logs.refl (host : Host α) : host.Logs host :=
  ⟨[], by rw [List.append_nil]⟩

theorem Host.Logs.trans {first second third : Host α} (early : first.Logs second)
    (late : second.Logs third) : first.Logs third := by
  obtain ⟨before, rfl⟩ := early
  obtain ⟨after, rfl⟩ := late
  exact ⟨before ++ after, by rw [List.append_assoc]⟩

theorem Host.logs_log (host : Host α) (level : Log.Level) (logger : String)
    (words : List Log.Word) : host.Logs ((Host.log level logger words).run host).2 :=
  ⟨_, rfl⟩

/-- Whether a stage that goes from one host to another is honest about it: it has started the tool
once if there was anything to render and not at all otherwise, it succeeds exactly if the output
came about, and a failure is in the log. -/
structure Render.Reports (settings : Settings) (idle : Prop) (input output : Path)
    (before after : Host α) (success : Bool) : Prop where
  copied : idle → after.calls = before.calls ∧
    (success = true ↔ before.disk.copy input output = .ok after.disk)
  rendered : ¬ idle → ∃ arguments, let command := settings.ffmpeg before.programs :: arguments
    after.calls = before.calls ++ [⟨command, settings.renderTimeout⟩] ∧
      (success = true ↔
        (before.ending command).isSuccess = true ∧ after.disk.has output = true)
  noted : ∃ records, after.records = before.records ++ records ∧
    (success = false → ∃ record ∈ records, record.level = .error)

namespace Render

variable {settings : Settings} {idle : Prop} {input output : Path}

theorem Reports.of_idle {before after : Host α} {success : Bool} (nothing : idle)
    (calls : after.calls = before.calls)
    (copied : success = true ↔ before.disk.copy input output = .ok after.disk)
    (noted : ∃ records, after.records = before.records ++ records ∧
      (success = false → ∃ record ∈ records, record.level = .error)) :
    Reports settings idle input output before after success :=
  ⟨fun _ => ⟨calls, copied⟩, fun busy => absurd nothing busy, noted⟩

theorem Reports.of_busy {before after : Host α} {success : Bool} (busy : ¬ idle)
    {arguments : List String} (started : after.calls = before.calls ++
      [⟨settings.ffmpeg before.programs :: arguments, settings.renderTimeout⟩])
    (succeeds : success = true ↔
      (before.ending (settings.ffmpeg before.programs :: arguments)).isSuccess = true ∧
        after.disk.has output = true)
    (noted : ∃ records, after.records = before.records ++ records ∧
      (success = false → ∃ record ∈ records, record.level = .error)) :
    Reports settings idle input output before after success :=
  ⟨fun nothing => absurd nothing busy, fun _ => ⟨arguments, started, succeeds⟩, noted⟩

/-- What was logged before a stage began makes no difference. -/
theorem Reports.of_logs {before between after : Host α} {success : Bool}
    (logs : before.Logs between)
    (reports : Reports settings idle input output between after success) :
    Reports settings idle input output before after success := by
  obtain ⟨early, rfl⟩ := logs
  obtain ⟨records, noted, failed⟩ := reports.noted
  refine ⟨reports.copied, reports.rendered, early ++ records, ?_, fun failure => ?_⟩
  · rw [noted, List.append_assoc]
  · obtain ⟨record, member, level⟩ := failed failure
    exact ⟨record, List.mem_append_right _ member, level⟩

theorem Reports.of_failed {before after : Host α} {success : Bool}
    (reports : Reports settings idle input output before after success) (busy : ¬ idle)
    (failed : ∀ command, (before.ending command).isSuccess = false) :
    success = false ∧ ∃ record ∈ after.records, record.level = .error := by
  obtain ⟨arguments, _, succeeds⟩ := reports.rendered busy
  obtain ⟨records, noted, tells⟩ := reports.noted
  have failure : success = false := by
    refine Bool.eq_false_iff.mpr fun isTrue => ?_
    exact Bool.false_ne_true ((failed _).symm.trans (succeeds.mp isTrue).1)
  obtain ⟨record, member, level⟩ := tells failure
  exact ⟨failure, record, noted ▸ List.mem_append_right _ member, level⟩

theorem run_copyVideo (logger : String) (input output : Path) (host : Host α) :
    (copyVideo logger input output).run host = match host.disk.copy input output with
      | .ok disk => (true, { host with disk })
      | .error cause => (false, ((Host.log .error logger [.text ("Falha ao copiar " ++
          input.toString ++ ": "), .cause cause]).run host).2) := by
  unfold copyVideo
  have copied : (Host.copy input output).run host = Host.copy input output host := rfl
  rw [StateT.run_bind, copied]
  unfold Host.copy
  cases host.disk.copy input output <;> rfl

theorem reports_copyVideo (logger : String) (nothing : idle) (host : Host α) :
    Reports settings idle input output host ((copyVideo logger input output).run host).2
      ((copyVideo logger input output).run host).1 := by
  rw [run_copyVideo]
  cases copied : host.disk.copy input output with
  | ok disk =>
    exact .of_idle nothing rfl (iff_of_true rfl copied) ⟨[], (List.append_nil _).symm, nofun⟩
  | error cause =>
    refine .of_idle nothing rfl (iff_of_false nofun ?_)
      ⟨[_], rfl, fun _ => ⟨_, List.mem_singleton_self _, rfl⟩⟩
    rw [copied]
    exact nofun

def started (command : List String) (timeout : Json) (host : Host α) : Host α :=
  ((Host.start command timeout).run host).2

/-- A run does not fail if and only if the tool was successful; a failure is in the log. -/
theorem run_run (command : List String) (timeout : Json) (host : Host α) :
    ((host.ending command).isSuccess = true ∧ ∃ completed,
        (run command timeout).run.run host = (.ok completed, started command timeout host)) ∨
      ((host.ending command).isSuccess = false ∧ ∃ failure record, record.level = .error ∧
        (run command timeout).run.run host = (.error failure,
          { started command timeout host with
            records := (started command timeout host).records ++ [record] })) := by
  have start : (Job.ofAct (Host.start command timeout)).run.run host =
      (.ok (host.ending command), started command timeout host) := rfl
  unfold run
  rw [Job.run_bind_of_ok start]
  cases host.ending command with
  | timedOut => exact .inr ⟨rfl, _, _, rfl, rfl⟩
  | refused cause text => exact .inr ⟨rfl, _, _, rfl, rfl⟩
  | exited code output errors =>
    by_cases well : code = 0
    · refine .inl ⟨decide_eq_true well, ⟨code, output, errors⟩, ?_⟩
      simp only [if_pos well]
      rfl
    · refine .inr ⟨decide_eq_false well, ?_⟩
      simp only [if_neg well]
      exact ⟨_, _, rfl, rfl⟩

theorem run_invoke (command : List String) (timeout : Json) (output : Path) (stage : String)
    (host : Host α) :
    (invoke command timeout output stage).run host =
      match (run command timeout).run.run host with
        | (.ok _, after) => (if after.disk.has output then pure ⟨true, some output, ""⟩ else
            reject stage ("saída não encontrada em " ++ output.toString)
              ("saída ausente: " ++ output.toString)).run after
        | (.error failure, after) =>
          (reject stage (reason failure) (reason failure)).run after := by
  unfold invoke
  rw [StateT.run_bind]
  rcases (run command timeout).run.run host with ⟨failure | completed, after⟩ <;> rfl

/-- A stage that runs the tool starts it once, succeeds if the tool did and the output is there, and
says in the log that it failed. -/
theorem reports_invoke (settings : Settings) (busy : ¬ idle) (input : Path)
    (arguments : List String) (output : Path) (stage : String) (host : Host α) :
    Reports settings idle input output host
      ((invoke (settings.ffmpeg host.programs :: arguments) settings.renderTimeout output stage).run
        host).2
      ((invoke (settings.ffmpeg host.programs :: arguments) settings.renderTimeout output stage).run
        host).1.success := by
  have ran := run_run (settings.ffmpeg host.programs :: arguments) settings.renderTimeout host
  rw [run_invoke]
  obtain ⟨well, completed, ran⟩ | ⟨ill, failure, record, level, ran⟩ := ran
  · rw [ran]
    dsimp only
    cases there : (started _ settings.renderTimeout host).disk.has output with
    | true =>
      exact .of_busy busy rfl (iff_of_true rfl ⟨well, there⟩)
        ⟨[], (List.append_nil _).symm, nofun⟩
    | false =>
      refine .of_busy busy rfl (iff_of_false nofun fun both => ?_)
        ⟨[_], rfl, fun _ => ⟨_, List.mem_singleton_self _, rfl⟩⟩
      exact Bool.false_ne_true (there.symm.trans both.2)
  · rw [ran]
    refine .of_busy busy rfl (iff_of_false nofun fun both => ?_)
      ⟨[record, _], List.append_assoc _ _ _, fun _ => ⟨record, List.mem_cons_self, level⟩⟩
    exact Bool.false_ne_true (ill.symm.trans both.1)

end Render

end Screencast
