import Screencast.Proofs.Audio.Ending
import Screencast.Proofs.Number.Range
import Screencast.Proofs.Number.Scientific
import Screencast.Proofs.Render.Probing
import Screencast.Proofs.Render.Running
import Screencast.Proofs.Viewport.Compiled

/-!
How rendering ends. Once its video is looked at, each stage comes to an end without fail and is
honest about it, whatever becomes of the video tool and of the copy; unless a volume or a zoom was
declared by what is no number, or a picture or a number of frames is beyond all numbers.
-/

namespace Screencast

open Number

namespace Binary

open Machine Rounding

theorem signed_half (n : Int) :
    signed (signOf (n < 0)) ((5 * n.natAbs : Nat) * 10 ^ (-1 : Int)) = (n : Rat) / 2 := by
  have tenths : ((5 * n.natAbs : Nat) : Rat) * 10 ^ (-1 : Int) = n.natAbs / 2 := by
    norm_num
    ring
  rw [tenths, Nat.cast_natAbs]
  rcases lt_or_ge n 0 with below | above
  · rw [decide_eq_true below, abs_of_neg below, Int.cast_neg]
    change -(-(n : Rat) / 2) = _
    ring
  · rw [decide_eq_false (not_lt.mpr above), abs_of_nonneg above]
    rfl

theorem isFinite_half {n : Int} (finite : isFinite (Float.ofInt n) = true) :
    isFinite (ofDecimal (n < 0) (5 * n.natAbs) (-1)) = true := by
  have positive := limit_pos
  obtain ⟨a, stands⟩ := isFinite_iff.mp finite
  obtain ⟨lower, upper⟩ := stands.bounds
  rw [Option.some.inj (stands.value.symm.trans (value_ofInt n))] at lower upper
  have value := value_ofDecimal (n < 0) (5 * n.natAbs) (-1)
  rw [signed_half] at value
  refine isFinite_iff.mpr ⟨_, stands_of_bounds value ?_ ?_⟩
  · rcases le_total 0 (n : Rat) with above | below
    · have least : Rounding.round 0 ≤ Rounding.round ((n : Rat) / 2) := round_mono (by linarith)
      rw [round_zero] at least
      linarith
    · exact lower.trans_le (round_mono (by linarith))
  · rcases le_total 0 (n : Rat) with above | below
    · exact (round_mono (by linarith)).trans_lt upper
    · have most : Rounding.round ((n : Rat) / 2) ≤ Rounding.round 0 := round_mono (by linarith)
      rw [round_zero] at most
      linarith

end Binary

namespace Timeline

theorem exists_middle {side : Int} (finite : isFinite (ofInt side : Float) = true) :
    ∃ half, (middle side : Except Failure Float) = .ok half :=
  ⟨_, if_pos (Binary.isFinite_half finite)⟩

theorem exists_ofVideo (commands : List (Command Float)) (track : Track Float) {seconds : Float}
    {fps : Int} {size : Int × Int} (counted : isFinite (seconds * ofInt fps) = true)
    (wide : isFinite (ofInt size.1 : Float) = true)
    (high : isFinite (ofInt size.2 : Float) = true) :
    ∃ frames, ofVideo commands track seconds fps size = .ok frames ∧
      build commands track seconds fps size = .ok frames ∧
      frameCount seconds fps = .ok frames.length := by
  obtain ⟨count, isCount⟩ := frameCount_of_isFinite counted
  obtain ⟨frames, built, length⟩ : ∃ frames, build commands track seconds fps size = .ok frames ∧
      frames.length = count :=
    ⟨_, build_eq_ok_iff.mpr ⟨count, isCount, rfl⟩, by simp⟩
  obtain ⟨_, across⟩ := exists_middle wide
  obtain ⟨_, down⟩ := exists_middle high
  refine ⟨frames, ?_, built, length ▸ isCount⟩
  unfold ofVideo
  rw [LawfulNumber.isFinite_of_mul counted, built]
  simp only [across, down]
  rfl

end Timeline

namespace Render

variable {α : Type}

theorem Plan.command_eq_cons (plan : Plan) (tool : String) (output : Path) :
    plan.command tool output = tool :: (plan.command tool output).tail := rfl

theorem reports_carryOut (settings : Settings) {idle : Prop} {input output : Path}
    (busy : ¬ idle) (plan : Plan) (stage : String) (host : Host α) :
    ∃ success, (carryOut settings plan output stage).result host = .ok success ∧
      Reports settings idle input output host ((carryOut settings plan output stage).after host)
        success := by
  unfold carryOut
  rw [Job.result_get_bind, Job.after_get_bind, Plan.command_eq_cons, Job.result_bind,
    Job.after_bind, Job.result_ofAct, Job.after_ofAct]
  dsimp only
  rw [Job.result_pure, Job.after_pure]
  exact ⟨_, rfl, reports_invoke settings busy input _ output stage host⟩

end Render

variable {α : Type} [Number α] [LawfulNumber α]

/-- A timeline of finite numbers has a mix, and this has sound if anything is to be heard. -/
theorem Mix.exists_ofTimeline (video : Path) {events : List (Event α)}
    (finite : ∀ event ∈ events, event.IsFinite) (channels : Channels α) (videoLength : Option α)
    (initial : Table Int α) :
    ∃ mix, (ofTimeline video events channels videoLength initial).2 = .ok mix ∧
      (mix.hasAudio = false ↔ heardFiles events channels = []) := by
  obtain ⟨written, writes, same, _⟩ := exists_written fun segment member =>
    (Part.exists_chainText finite channels initial member).imp fun _ found => found.1
  have files : written.map (·.1.file) = heardFiles events channels := by
    rw [← Part.files_segments finite channels initial, ← same, List.map_map]
    rfl
  refine ⟨ofSegments video written videoLength, ?_, ?_⟩
  · simp only [ofTimeline, writes]
    rfl
  · rw [← files, List.map_eq_nil_iff]
    cases written with
    | nil => exact iff_of_true rfl rfl
    | cons first rest =>
      exact iff_of_false (fun silent => Bool.false_ne_true silent.symm) (List.cons_ne_nil _ _)

namespace Studio

open Render

omit [Number α] [LawfulNumber α] in
theorem after_forM_warn (logger : String) (text : Path → String) (files : List Path)
    (studio : Studio α) :
    ∃ host, studio.host.Logs host ∧
      (files.forM fun file => warn logger (text file) : Work α Unit).after studio =
        { studio with host } := by
  induction files generalizing studio with
  | nil => exact ⟨_, .refl _, rfl⟩
  | cons file rest ih =>
    change ∃ host, _ ∧ (warn logger (text file) >>= fun _ => rest.forM _).after studio = _
    rw [Work.after_bind]
    obtain ⟨host, logs, after⟩ := ih ((warn logger (text file)).after studio)
    exact ⟨host, (Host.logs_log _ _ _ _).trans logs, after⟩

omit [LawfulNumber α] in
theorem after_compile (video : Path) (length : Option α) (studio : Studio α) :
    ∃ host, studio.host.Logs host ∧
      (compile video length).after studio = { studio with host } := by
  unfold compile
  rw [Work.after_get_bind]
  dsimp only
  rw [Work.after_bind, result_forM_warn]
  exact after_forM_warn _ _ _ _

/-- Joining a video with sound comes to an end, and is idle if nothing is to be heard. -/
theorem join_reports (settings : Settings) (video output : Path) (length : α) {studio : Studio α}
    (finite : ∀ event ∈ studio.session.timeline, event.IsFinite) :
    ∃ success, (join settings video output length).result studio = .ok success ∧
      Reports settings (Mix.heardFiles studio.session.timeline studio.session.channels = []) video
        output studio.host ((join settings video output length).after studio).host success := by
  obtain ⟨mix, made, sounds⟩ := Mix.exists_ofTimeline video finite studio.session.channels
    (some (length / 1000)) studio.session.volumes
  have compiled : (compile video (some (length / 1000))).result studio = .ok mix := by
    rw [result_compile]
    exact made
  obtain ⟨host, logs, after⟩ := after_compile video (some (length / 1000)) studio
  unfold join
  rw [Work.result_bind, Work.after_bind, compiled, after]
  dsimp only
  change ∃ success, Job.result (if mix.hasAudio then _ else _) host = .ok success ∧
    Reports _ _ _ _ _ (Job.after (if mix.hasAudio then _ else _) host) success
  cases audible : mix.hasAudio with
  | false =>
    rw [if_neg Bool.false_ne_true, Job.result_ofAct, Job.after_ofAct]
    exact ⟨_, rfl, .of_logs logs (reports_copyVideo logger (sounds.mp audible) host)⟩
  | true =>
    have busy : ¬ Mix.heardFiles studio.session.timeline studio.session.channels = [] :=
      fun silent => Bool.false_ne_true ((sounds.mpr silent).symm.trans audible)
    obtain ⟨success, done, reports⟩ :=
      reports_carryOut settings busy (.ofMix settings mix) "mix" host
    rw [if_pos rfl]
    exact ⟨success, done, .of_logs logs reports⟩

theorem render_reports {studio : Studio α} {video : Path} {info : MediaInfo α}
    (told : (Media.anew studio.settings video).result studio.host = .ok info)
    (finite : ∀ event ∈ studio.session.timeline, event.IsFinite) (output : Path) :
    ∃ success, (render video output).result studio = .ok success ∧
      Reports studio.settings
        (Mix.heardFiles studio.session.timeline studio.session.channels = []) video output
        ((Media.anew studio.settings video).after studio.host)
        ((render video output).after studio).host success := by
  have looked : (onHost (Media.anew studio.settings video)).result studio = .ok info := told
  rw [render_eq, Work.result_get_bind, Work.after_get_bind]
  dsimp only
  rw [Work.result_bind, Work.after_bind, looked]
  let between := (onHost (Media.anew studio.settings video)).after studio
  exact @join_reports _ _ _ studio.settings video output info.duration between finite

end Studio

namespace Render.Viewport

def lasting {α : Type} [Number α] (length : α) : α :=
  if length / 1000 ≤ 0 then fallbackSeconds else length / 1000

omit [LawfulNumber α] in
theorem run_secondsOf (input : Path) (length : α) (host : Host α) :
    ∃ after, host.Logs after ∧ (secondsOf input length).run host = (lasting length, after) := by
  unfold secondsOf lasting
  dsimp only
  split
  · exact ⟨_, Host.logs_log _ _ _ _, rfl⟩
  · exact ⟨_, .refl _, rfl⟩

structure InRange (settings : Settings) (size : Int × Int) (length : Float) : Prop where
  counted : isFinite (lasting length * ofInt settings.viewportFps) = true
  wide : isFinite (ofInt size.1 : Float) = true
  high : isFinite (ofInt size.2 : Float) = true

def Still (settings : Settings) (length : Float) : Prop :=
  ∃ count < 2, Timeline.frameCount (lasting length) settings.viewportFps = .ok count

/-- Filming a video comes to an end, and is idle if there are less than two frames. -/
theorem film_reports {settings : Settings} {size : Int × Int} {length : Float}
    (range : InRange settings size length) (input output : Path) (track : Track Float)
    {commands : List (Command Float)} (drawable : Zoom.Drawable (Command.followZooms commands))
    (host : Host Float) :
    let job := film settings input output track commands size length
    ∃ success, job.result host = .ok success ∧
      Reports settings (Still settings length) input output host (job.after host) success := by
  intro job
  obtain ⟨between, logs, seconds⟩ := run_secondsOf input length host
  obtain ⟨frames, video, built, counted⟩ :=
    Timeline.exists_ofVideo commands track range.counted range.wide range.high
  unfold job film
  rw [Job.result_bind, Job.after_bind, Job.result_ofAct, Job.after_ofAct, seconds]
  dsimp only
  rw [video, Job.ok_bind]
  by_cases few : frames.length < 2
  · rw [if_pos few]
    exact ⟨_, rfl, .of_logs logs (reports_copyVideo logger ⟨_, few, counted⟩ between)⟩
  · have busy : ¬ Still settings length := by
      rintro ⟨count, still, isCount⟩
      cases isCount.symm.trans counted
      exact few still
    obtain ⟨crop, text, made, written⟩ := Crop.exists_filter
      (drawable.of_isFrom (Timeline.isFrom_of_build built)) range.wide range.high
      settings.keyframeInterval
    rw [if_neg few, made, Job.ok_bind, written, Job.ok_bind]
    obtain ⟨success, done, reports⟩ :=
      reports_carryOut settings busy (.ofCrop input text) "crop" between
    exact ⟨success, done, .of_logs logs reports⟩

theorem apply_reports_of_nil (settings : Settings) (input output : Path) (track : Track Float)
    (resolution : Option (Int × Int)) (host : Host Float) :
    let job := apply settings input output track [] resolution
    ∃ success, job.result host = .ok success ∧
      Reports settings True input output host (job.after host) success :=
  ⟨_, rfl, reports_copyVideo logger trivial host⟩

def sizeOf (settings : Settings) (resolution : Option (Int × Int)) (info : MediaInfo Float) :
    Int × Int :=
  info.size?.getD (resolution.getD (settings.defaultWidth, settings.defaultHeight))

theorem apply_reports {settings : Settings} {input : Path} {host : Host Float}
    {info : MediaInfo Float} (told : (Media.anew settings input).result host = .ok info)
    {resolution : Option (Int × Int)}
    (range : InRange settings (sizeOf settings resolution info) info.duration)
    {commands : List (Command Float)} (some_command : commands ≠ [])
    (drawable : Zoom.Drawable (Command.followZooms commands)) (output : Path)
    (track : Track Float) :
    let job := apply settings input output track commands resolution
    ∃ success, job.result host = .ok success ∧
      Reports settings (Still settings info.duration) input output
        ((Media.anew settings input).after host) (job.after host) success := by
  intro job
  unfold job
  rw [apply_eq settings input output track some_command, Job.result_bind, Job.after_bind, told]
  exact film_reports range input output track drawable _

end Render.Viewport

namespace Render

/-- Rendering does not fail silently. A stage whose video could be looked at comes to an end, and
says truly whether it succeeded: it starts the video tool once, or only copies the video if there is
nothing to render, and every failure is in the log. For this the volumes of a session must be
numbers, the zooms that the follows set must be numbers that are not too far apart, and the frames
of the video and the sides of its picture must be in range. -/
theorem stages_report (video output : Path) :
    (∀ (studio : Studio Float) (info : MediaInfo Float),
      (Media.anew studio.settings video).result studio.host = .ok info →
      (∀ event ∈ studio.session.timeline, event.IsFinite) →
      ∃ success, (Studio.render video output).result studio = .ok success ∧
        Reports studio.settings
          (Mix.heardFiles studio.session.timeline studio.session.channels = []) video output
          ((Media.anew studio.settings video).after studio.host)
          ((Studio.render video output).after studio).host success) ∧
    (∀ settings (track : Track Float) resolution host,
      let job := Viewport.apply settings video output track [] resolution
      ∃ success, job.result host = .ok success ∧
        Reports settings True video output host (job.after host) success) ∧
    ∀ settings (track : Track Float) commands resolution host info,
      commands ≠ [] → Zoom.Drawable (Command.followZooms commands) →
      (Media.anew settings video).result host = .ok info →
      Viewport.InRange settings (Viewport.sizeOf settings resolution info) info.duration →
      let job := Viewport.apply settings video output track commands resolution
      ∃ success, job.result host = .ok success ∧
        Reports settings (Viewport.Still settings info.duration) video output
          ((Media.anew settings video).after host) (job.after host) success := by
  refine ⟨?_, ?_, ?_⟩
  · intro studio info told finite
    exact Studio.render_reports told finite output
  · intro settings track resolution host
    exact Viewport.apply_reports_of_nil settings video output track resolution host
  · intro settings track commands resolution host info some_command drawable told range
    exact Viewport.apply_reports told range some_command drawable output track

/-- Music that is to be mixed in by a tool that gives up, and zooms by a tool whose time is up. -/
theorem stages_report_failed_tool :
    let capture : Path := ⟨.root, ["capture.mp4"]⟩
    let output : Path := ⟨.root, ["out.mp4"]⟩
    let facts : Facts Float := .catalogue [("capture.mp4", ⟨1500, some 1280, some 720⟩)]
    let clip : Clip Float := ⟨some ⟨.root, ["music.mp3"]⟩, 0, 0, false, none, 5000, 0⟩
    let studio : Studio Float :=
      { settings := {}, host := { facts, outcomes := [.exited 1 "" "no such codec" none] },
        session := { Session.new with timeline := [⟨2, 0, .play clip⟩] }, clock := 100 }
    let late : Host Float := { facts, outcomes := [.timedOut] }
    let commands : List (Command Float) := [.follow 0 1 (.whole 3), .zoom 2 0 1 .mouse]
    let zoom := Viewport.apply {} capture output [] commands none
    ((Studio.render capture output).result studio = .ok false ∧
      ∃ record ∈ ((Studio.render capture output).after studio).host.records,
        record.level = .error) ∧
    zoom.result late = .ok false ∧ ∃ record ∈ (zoom.after late).records, record.level = .error := by
  intro capture output facts clip studio late commands zoom
  obtain ⟨mixes, _, crops⟩ := stages_report capture output
  constructor
  · have finite : ∀ event ∈ studio.session.timeline, event.IsFinite :=
      List.forall_mem_singleton.mpr ⟨by decide +kernel, by decide +kernel, by decide +kernel, nofun,
        by decide +kernel, by decide +kernel⟩
    have busy : ¬ Mix.heardFiles studio.session.timeline studio.session.channels = [] := by
      decide +kernel
    obtain ⟨success, done, reports⟩ := mixes studio _ rfl finite
    obtain ⟨rfl, record⟩ := reports.of_failed busy fun _ => rfl
    exact ⟨done, record⟩
  · have range : Viewport.InRange {} (Viewport.sizeOf {} none ⟨1500, some 1280, some 720⟩) 1500 :=
      ⟨by decide +kernel, by decide +kernel, by decide +kernel⟩
    have busy : ¬ Viewport.Still {} 1500 := by
      rintro ⟨count, few, isCount⟩
      have frames : Timeline.frameCount (Viewport.lasting (1500 : Float)) 30 = .ok 45 := by
        decide +kernel
      cases isCount.symm.trans frames
      exact absurd few (by decide)
    have inRange (n : Int) (small : n.natAbs ≤ twoTo 53) :
        ∃ value : Float, Number.ofInt? n = .ok value :=
      ⟨_, if_pos (LawfulNumber.isFinite_ofInt small)⟩
    have level := inRange 3 (by decide)
    have rise := inRange (3 - 3) (by decide)
    have drawable : Zoom.Drawable (Command.followZooms commands) :=
      ⟨List.forall_mem_singleton.mpr level,
        List.forall_mem_singleton.mpr (List.forall_mem_singleton.mpr rise)⟩
    obtain ⟨success, done, reports⟩ :=
      crops {} [] commands none late _ (List.cons_ne_nil _ _) drawable rfl range
    obtain ⟨rfl, record⟩ := reports.of_failed busy fun _ => rfl
    exact ⟨done, record⟩

/-- A volume that is declared by a text is taken as it stands, and then the mix has no text; and
nothing can be made of a picture that is wider than any number. -/
theorem stages_fail_unreported :
    let volume : Json := .object [("file", .string "/m/music.mp3"), ("channel", .int 2),
      ("volume", .string "0.5")]
    let scene : Json := .object [("tracks", .array [volume])]
    let capture : Path := ⟨.root, ["capture.mp4"]⟩
    let output : Path := ⟨.root, ["out.mp4"]⟩
    let studio : Studio Float :=
      { settings := {}, host := { facts := .catalogue [("music.mp3", ⟨5000, none, none⟩)] },
        session := .new, clock := 100 }
    let declare : Work Float Unit := Studio.configure scene ⟨.root, []⟩
    let wide : Host Float :=
      { facts := .catalogue [("capture.mp4", ⟨1500, some (10 ^ 400), some 720⟩)] }
    declare.result studio = .ok () ∧
      (Studio.render capture output).result (declare.after studio) = .error (.noFixedForm "str") ∧
      (Viewport.apply {} capture output [] [.zoom 2 0 1 .mouse] none).result wide =
        .error .quotientTooLarge := by
  exact ⟨by decide +kernel, by decide +kernel, by decide +kernel⟩

end Render

end Screencast
