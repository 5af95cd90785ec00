import Screencast.Proofs.Audio.Chain
import Screencast.Proofs.Audio.Label
import Screencast.Proofs.Audio.Link
import Screencast.Proofs.Number.Lawful
import Screencast.Proofs.Render.Arguments

/-!
The graph of a mix, read filter by filter. Each play that is to be heard has an input and a filter
of its own, which takes this input alone; the last filter takes what these give, all of it and in
the same order.
-/

namespace Screencast

open Text

variable {α : Type} [Number α]

/-- The file that is to be heard when an event plays it: one that has a length, on a channel that is
not in the recording already. -/
def Event.heardFile? (channels : Channels α) (event : Event α) : Option Path :=
  match event.action with
  | .play clip =>
    if 0 < clip.length ∧ (channels.get event.channel).output.isMixed = true then clip.file else none
  | _ => none

namespace Mix

def heardFiles (events : List (Event α)) (channels : Channels α) : List Path :=
  (grouped (·.channel) events).filterMap (Event.heardFile? channels)

/-- Whether a mix of a video joins all these files, and nothing else. -/
structure Joins (mix : Mix) (video : Path) (files : List Path) (labels : List String) : Prop where
  audible : mix.hasAudio = true
  inputs : mix.inputs = video :: files
  labelled : labels.length = files.length
  distinct : ("aout" :: labels).Nodup
  filters : (Link.readGraph mix.graph).length = files.length + 1
  /-- A file's filter takes its input, which is that file, and gives its label. -/
  file : ∀ i (inside : i < files.length), mix.inputs[i + 1]? = some files[i] ∧
    ∃ body label, labels[i]? = some label ∧ (Link.readGraph mix.graph)[i]? =
      some (some ⟨[toString (i + 1) ++ ":a"], body, [label]⟩)
  /-- The last filter takes all labels. -/
  last : ∃ rest, (Link.readGraph mix.graph)[files.length]? =
    some (some ⟨labels, "amix=inputs=" ++ toString files.length ++ ":" ++ rest, ["aout"]⟩)

theorem exists_written {parts : List (Part α)}
    (texts : ∀ segment ∈ Part.segments parts, ∃ text, segment.chainText = .ok text) :
    ∃ written, (write parts).2 = .ok written ∧ written.map (·.1) = Part.segments parts ∧
      ∀ pair ∈ written, pair.1.chainText = .ok pair.2 := by
  induction parts with
  | nil => exact ⟨[], rfl, rfl, by simp⟩
  | cons part rest ih =>
    cases part with
    | silent file =>
      exact ih texts
    | segment segment =>
      obtain ⟨text, chained⟩ := texts segment (by simp [Part.segments, Part.segment?])
      obtain ⟨written, writes, same, chainedRest⟩ := ih fun other member =>
        texts other (List.mem_cons_of_mem _ member)
      refine ⟨(segment, text) :: written, ?_, ?_, List.forall_mem_cons.mpr ⟨chained, chainedRest⟩⟩
      · rw [write, chained]
        simp only [writes]
        rfl
      · rw [List.map_cons, same]
        rfl

def bound (videoLength : Option α) : String :=
  match videoLength with
  | some seconds =>
    if 0 < seconds then ",atrim=0:" ++ secondsText (seconds * 1000) ++ ",asetpts=PTS-STARTPTS"
    else ""
  | none => ""

def mixerBody (count : Nat) (videoLength : Option α) : String :=
  "amix=inputs=" ++ toString count ++ ":duration=longest:dropout_transition=2" ++
    bound videoLength

theorem exists_mixerBody (count : Nat) (videoLength : Option α) :
    ∃ rest, mixerBody count videoLength = "amix=inputs=" ++ toString count ++ ":" ++ rest := by
  refine ⟨"duration=longest:dropout_transition=2" ++ bound videoLength, ?_⟩
  have colon : ":duration=longest:dropout_transition=2" =
      ":" ++ "duration=longest:dropout_transition=2" := rfl
  rw [mixerBody, colon]
  simp only [String.append_assoc]

theorem unmarked_mixerBody (count : Nat) (videoLength : Option α) :
    Unmarked (mixerBody count videoLength).toList := by
  have ending : Unmarked (bound videoLength).toList := by
    unfold bound
    split
    · split
      · simp only [String.toList_append, unmarked_append]
        exact ⟨⟨by decide, unmarked_secondsText _⟩, by decide⟩
      · decide
    · decide
  unfold mixerBody
  simp only [String.toList_append, unmarked_append]
  exact ⟨⟨⟨by decide, unmarked_nat count⟩, by decide⟩, ending⟩

def links (written : List (Segment α × String)) (videoLength : Option α) : List Link :=
  (written.zipIdx.map fun (pair, index) =>
    ⟨[toString (index + 1) ++ ":a"], pair.2, [pair.1.label]⟩) ++
    [⟨written.map (·.1.label), mixerBody written.length videoLength, ["aout"]⟩]

omit [Number α] in
theorem inputFilter_eq (pair : Segment α × String) (input : Nat) :
    inputFilter pair input = String.ofList
      (Link.toChars ⟨[toString input ++ ":a"], pair.2, [pair.1.label]⟩) := by
  apply String.toList_inj.mp
  simp [inputFilter, Link.toChars, Link.bracketed]

theorem mixer_eq (segments : List (Segment α)) (videoLength : Option α) :
    mixer segments videoLength = String.ofList
      (Link.toChars ⟨segments.map Segment.label, mixerBody segments.length videoLength,
        ["aout"]⟩) := by
  apply String.toList_inj.mp
  have names : (String.join (segments.map fun s => "[" ++ s.label ++ "]")).toList =
      Link.bracketed (segments.map Segment.label) := by
    simp [String.toList_join, Link.bracketed, List.flatMap_map]
  rw [String.toList_ofList, Link.toChars, ← names]
  simp only [mixer, mixerBody, String.toList_append, List.append_assoc]
  rfl

theorem plain_of_mem_links {written : List (Segment α × String)}
    (plain : ∀ pair ∈ written, Unmarked pair.2.toList ∧ pair.2 ≠ "") (videoLength : Option α) :
    ∀ link ∈ links written videoLength, link.Plain := by
  intro link member
  rcases List.mem_append.mp member with file | last
  · obtain ⟨⟨pair, index⟩, inWritten, rfl⟩ := List.mem_map.mp file
    obtain ⟨body, nonempty⟩ := plain pair (List.fst_mem_of_mem_zipIdx inWritten)
    refine ⟨?_, body, nonempty, ?_⟩
    · intro name isSource
      rw [List.mem_singleton.mp isSource, String.toList_append]
      exact unmarked_append.mpr ⟨unmarked_nat _, by decide⟩
    · intro name isSink
      rw [List.mem_singleton.mp isSink]
      exact Segment.unmarked_label _
  · rw [List.mem_singleton.mp last]
    refine ⟨?_, unmarked_mixerBody _ _, by simp [mixerBody], ?_⟩
    · intro name isSource
      obtain ⟨pair, _, rfl⟩ := List.mem_map.mp isSource
      exact Segment.unmarked_label _
    · intro name isSink
      rw [List.mem_singleton.mp isSink]
      decide

theorem readGraph_ofSegments (video : Path) {written : List (Segment α × String)}
    (some_segment : written ≠ [])
    (plain : ∀ pair ∈ written, Unmarked pair.2.toList ∧ pair.2 ≠ "") (videoLength : Option α) :
    Link.readGraph (ofSegments video written videoLength).graph =
      (links written videoLength).map some := by
  have texts : (ofSegments video written videoLength).graph =
      String.intercalate ";" ((links written videoLength).map fun link =>
        String.ofList link.toChars) := by
    cases written with
    | nil => exact absurd rfl some_segment
    | cons first rest =>
      simp only [ofSegments, links, List.map_append, List.map_map, List.map_cons, List.map_nil,
        mixer_eq, inputFilter_eq]
      simp [Function.comp_def]
  rw [texts]
  exact Link.readGraph_intercalate (by simp [links]) (plain_of_mem_links plain videoLength)

theorem length_links (written : List (Segment α × String)) (videoLength : Option α) :
    (links written videoLength).length = written.length + 1 := by
  simp [links]

theorem links_file (written : List (Segment α × String)) (videoLength : Option α) {i : Nat}
    (inside : i < written.length) :
    (links written videoLength)[i]? =
      some ⟨[toString (i + 1) ++ ":a"], written[i].2, [written[i].1.label]⟩ := by
  unfold links
  rw [List.getElem?_append_left (by simpa using inside), List.getElem?_map, List.getElem?_zipIdx,
    List.getElem?_eq_getElem inside]
  simp

theorem links_last (written : List (Segment α × String)) (videoLength : Option α) :
    (links written videoLength)[written.length]? =
      some ⟨written.map (·.1.label), mixerBody written.length videoLength, ["aout"]⟩ := by
  unfold links
  rw [List.getElem?_append_right (by simp)]
  simp

/-- Segments with texts and labels of their own are all joined. -/
theorem joins_ofSegments (video : Path) {written : List (Segment α × String)}
    (some_segment : written ≠ [])
    (plain : ∀ pair ∈ written, Unmarked pair.2.toList ∧ pair.2 ≠ "")
    (distinct : (written.map (·.1.label)).Nodup) (videoLength : Option α) :
    (ofSegments video written videoLength).Joins video (written.map (·.1.file))
      (written.map (·.1.label)) := by
  have reads := readGraph_ofSegments video some_segment plain videoLength
  have inputs : (ofSegments video written videoLength).inputs =
      video :: written.map (·.1.file) := by
    cases written with
    | nil => exact absurd rfl some_segment
    | cons first rest => simp [ofSegments, Function.comp_def]
  refine ⟨?_, inputs, by simp, ?_, ?_, ?_, ?_⟩
  · cases written with
    | nil => exact absurd rfl some_segment
    | cons first rest => rfl
  · refine List.nodup_cons.mpr ⟨?_, distinct⟩
    intro member
    obtain ⟨pair, _, same⟩ := List.mem_map.mp member
    exact Segment.label_ne_output pair.1 same
  · rw [reads, List.length_map, length_links, List.length_map]
  · intro i inside
    rw [List.length_map] at inside
    refine ⟨?_, written[i].2, written[i].1.label, ?_, ?_⟩
    · rw [inputs, List.getElem?_cons_succ, List.getElem?_eq_getElem (by simpa using inside)]
    · rw [List.getElem?_map, List.getElem?_eq_getElem inside]
      rfl
    · rw [reads, List.getElem?_map, links_file written videoLength inside]
      rfl
  · obtain ⟨rest, body⟩ := exists_mixerBody written.length videoLength
    refine ⟨rest, ?_⟩
    rw [reads, List.length_map, List.getElem?_map, links_last, body]
    rfl

end Mix

theorem Event.heardFile?_of_live {channels : Channels α} {event : Event α}
    (live : ¬ (channels.get event.channel).output.isMixed = true) :
    event.heardFile? channels = none := by
  unfold heardFile?
  split
  · rw [if_neg fun both => live both.2]
  · rfl

variable [LawfulNumber α]

theorem Event.sound?_file {channels : Channels α} {event : Event α} (finite : event.IsFinite)
    (mixed : (channels.get event.channel).output.isMixed = true) :
    event.sound?.map (·.1) = event.heardFile? channels := by
  cases action : event.action with
  | stop fadeOut => simp [sound?, heardFile?, action]
  | volume level ramp => simp [sound?, heardFile?, action]
  | play clip =>
    have comparable := LawfulNumber.self_le (finite.clip action).length
    by_cases empty : clip.length ≤ 0
    · simp [sound?, heardFile?, action, empty, Number.not_lt_of_le empty]
    · have positive : 0 < clip.length := Number.lt_of_not_le comparable Number.zero_le_zero empty
      simp [sound?, heardFile?, action, empty, positive, mixed, Function.comp_def]

namespace Part

theorem files_segmentsOn {channels : Channels α} (initial : Table Int α) {id : Int}
    {events : List (Event α)} (finite : ∀ event ∈ events, event.IsFinite)
    (own : ∀ event ∈ events, event.channel = id) :
    (segmentsOn channels initial id events).map (·.file) =
      events.filterMap (Event.heardFile? channels) := by
  by_cases mixed : (channels.get id).output.isMixed = true
  · have heard : ∀ event ∈ events, event.sound?.map (·.1) = event.heardFile? channels :=
      fun event member => Event.sound?_file (finite event member) (own event member ▸ mixed)
    simp only [segmentsOn, mixed, if_true, List.map_map]
    change (Heard.ofEvents events).zipIdx.map (Heard.file ∘ Prod.fst) = _
    rw [← List.map_map, List.zipIdx_map_fst, Heard.ofEvents_files, List.map_filterMap]
    exact List.filterMap_congr heard
  · have none : events.filterMap (Event.heardFile? channels) = [] :=
      List.filterMap_eq_nil_iff.mpr fun event member =>
        Event.heardFile?_of_live (own event member ▸ mixed)
    rw [none]
    simp [segmentsOn, mixed]

theorem files_segments {events : List (Event α)} (finite : ∀ event ∈ events, event.IsFinite)
    (channels : Channels α) (initial : Table Int α) :
    (segments (ofTimeline events channels initial)).map (·.file) =
      Mix.heardFiles events channels := by
  unfold Mix.heardFiles grouped
  rw [segments_ofTimeline, List.map_flatMap, List.filterMap_flatMap]
  congr 1
  refine funext fun id => files_segmentsOn initial ?_ ?_
  · exact fun event member => finite event (List.mem_filter.mp member).1
  · exact fun event member => eq_of_beq (List.mem_filter.mp member).2

end Part

namespace Mix

/-- Whatever the events and the channels are, the mix of a timeline joins the files that are to be
heard, each of them once, and without any it is no more than the video; and the command of a mix has
its inputs. -/
theorem ofTimeline_joins (video : Path) {events : List (Event α)}
    (finite : ∀ event ∈ events, event.IsFinite) (channels : Channels α) (videoLength : Option α)
    (initial : Table Int α) :
    (heardFiles events channels).Perm (events.filterMap (Event.heardFile? channels)) ∧
      ∃ mix, (ofTimeline video events channels videoLength initial).2 = .ok mix ∧
        (heardFiles events channels = [] →
          mix.hasAudio = false ∧ mix.graph = "" ∧ mix.inputs = [video]) ∧
        (heardFiles events channels ≠ [] →
          ∃ labels, mix.Joins video (heardFiles events channels) labels) ∧
        ∀ settings tool output,
          Render.inputsOf ((Render.Plan.ofMix settings mix).command tool output).tail =
            mix.inputs.map Path.toString := by
  refine ⟨(grouped_perm _ events).filterMap _, ?_⟩
  have files := Part.files_segments finite channels initial
  have texts := fun (segment : Segment α)
      (member : segment ∈ Part.segments (Part.ofTimeline events channels initial)) =>
    Part.exists_chainText finite channels initial member
  obtain ⟨written, writes, same, chained⟩ := exists_written fun segment member =>
    (texts segment member).imp fun _ found => found.1
  have filesWritten : written.map (·.1.file) = heardFiles events channels := by
    rw [← files, ← same, List.map_map]
    rfl
  have labelsWritten : written.map (·.1.label) =
      (Part.segments (Part.ofTimeline events channels initial)).map Segment.label := by
    rw [← same, List.map_map]
    rfl
  have plain : ∀ pair ∈ written, Unmarked pair.2.toList ∧ pair.2 ≠ "" := by
    intro pair member
    have inSegments : pair.1 ∈ Part.segments (Part.ofTimeline events channels initial) := by
      rw [← same]
      exact List.mem_map_of_mem member
    obtain ⟨text, isText, found⟩ := texts pair.1 inSegments
    obtain rfl := Except.ok.inj ((chained pair member).symm.trans isText)
    exact found
  refine ⟨ofSegments video written videoLength, ?_, ?_, ?_, ?_⟩
  · simp only [ofTimeline, writes]
    rfl
  · intro silent
    obtain rfl := List.map_eq_nil_iff.mp (filesWritten.trans silent)
    exact ⟨rfl, rfl, rfl⟩
  · intro sounds
    have some_segment : written ≠ [] := by
      rintro rfl
      exact sounds filesWritten.symm
    refine ⟨written.map (·.1.label), filesWritten ▸ joins_ofSegments video some_segment plain ?_ _⟩
    rw [labelsWritten]
    exact Part.nodup_labels events channels initial
  · exact fun settings tool output => Render.inputsOf_command_ofMix settings _ tool output

/-- Two files on one channel, one between them on another, and one that is empty. -/
theorem ofTimeline_joins_two_channels :
    let clip (name : String) (length : Rat) : Action Rat :=
      .play ⟨some ⟨.root, [name]⟩, 0, 0, false, none, length, 0⟩
    let events : List (Event Rat) := [⟨3, 0, clip "a.mp3" 1000⟩, ⟨2, 500, clip "b.mp3" 2000⟩,
      ⟨2, 600, clip "c.mp3" 0⟩, ⟨3, 1500, clip "d.mp3" 1000⟩]
    ∃ mix labels, (ofTimeline ⟨.root, ["v.mp4"]⟩ events [] (some 10) []).2 = .ok mix ∧
      mix.Joins ⟨.root, ["v.mp4"]⟩
        [⟨.root, ["a.mp3"]⟩, ⟨.root, ["d.mp3"]⟩, ⟨.root, ["b.mp3"]⟩] labels := by
  intro clip events
  have finite : ∀ event ∈ events, event.IsFinite := by
    intro event member
    simp only [events, List.mem_cons, List.not_mem_nil, or_false] at member
    rcases member with rfl | rfl | rfl | rfl <;> exact ⟨rfl, rfl, rfl, nofun, rfl, rfl⟩
  obtain ⟨_, mix, made, _, joins, _⟩ :=
    ofTimeline_joins ⟨.root, ["v.mp4"]⟩ finite [] (some 10) []
  have files : heardFiles events [] =
      [⟨.root, ["a.mp3"]⟩, ⟨.root, ["d.mp3"]⟩, ⟨.root, ["b.mp3"]⟩] := by
    cbv
  rw [files] at joins
  obtain ⟨labels, joined⟩ := joins (by simp)
  exact ⟨mix, labels, made, joined⟩

end Mix

end Screencast
