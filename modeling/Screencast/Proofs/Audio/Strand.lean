import Screencast.Proofs.Audio.Graph

/-!
Strands: each file of a mix with its name and the filters it goes through, as they are read off the
graph. The strands of a channel are made of that channel's own events. What happens on the others,
and how it falls between, changes the numbers of the inputs at most.
-/

namespace Screencast

open Text

variable {α : Type} [Number α]

structure Strand where
  label : String
  file : Path
  chain : String
deriving DecidableEq, Repr

namespace Strand

def mark (id : Int) : String :=
  "ch" ++ toString id ++ "_"

def isOn (id : Int) (strand : Strand) : Bool :=
  (mark id).toList.isPrefixOf strand.label.toList

end Strand

namespace Segment

def strand (segment : Segment α) (chain : String) : Strand :=
  ⟨segment.label, segment.file, chain⟩

def strand? (segment : Segment α) : Except Failure Strand :=
  segment.chainText.map segment.strand

omit [Number α] in
theorem isOn_strand (segment : Segment α) (chain : String) (id : Int) :
    (segment.strand chain).isOn id = (segment.channel == id) := by
  rw [Bool.eq_iff_iff, beq_iff_eq, Strand.isOn, List.isPrefixOf_iff_prefix]
  have label : (segment.strand chain).label.toList = _ := toList_label segment
  have mark : (Strand.mark id).toList = 'c' :: 'h' :: ((toString id).toList ++ ['_']) := by
    simp [Strand.mark]
  rw [label, mark, List.cons_prefix_cons, List.cons_prefix_cons]
  constructor
  · rintro ⟨_, _, rest, same⟩
    rw [List.append_assoc, List.singleton_append] at same
    have notInIndex : '_' ∉ (toString segment.index).toList :=
      underscore_notMem_int segment.index
    obtain ⟨channels, _, _⟩ := (List.append_cons_inj_of_notMem
      (underscore_notMem_int segment.channel) notInIndex).mp same.symm
    exact Int.repr_injective (String.toList_inj.mp channels)
  · rintro rfl
    exact ⟨rfl, rfl, (toString segment.index).toList, by simp⟩

end Segment

namespace Mix

def fileOf? (inputs : List Path) (source : String) : Option Path :=
  ((List.range inputs.length).find? fun input => toString input ++ ":a" = source).bind (inputs[·]?)

def strandOf? (inputs : List Path) (link : Link) : Option Strand := do
  let file ← fileOf? inputs (← link.sources.head?)
  let label ← link.sinks.head?
  return ⟨label, file, link.body⟩

def strands (mix : Mix) : List Strand :=
  (Link.readGraph mix.graph).filterMap fun link => link.bind (strandOf? mix.inputs)

def strandsOn (mix : Mix) (id : Int) : List Strand :=
  mix.strands.filter (·.isOn id)

theorem fileOf?_input {inputs : List Path} {input : Nat} (inside : input < inputs.length) :
    fileOf? inputs (toString input ++ ":a") = some inputs[input] := by
  have names : ∀ other : Nat, toString other ++ ":a" = toString input ++ ":a" ↔ other = input :=
    fun other => ⟨fun same => Nat.repr_injective ((String.append_left_inj _).mp same),
      fun same => same ▸ rfl⟩
  have found : (List.range inputs.length).find? (fun other =>
      toString other ++ ":a" = toString input ++ ":a") = some input := by
    rw [List.find?_range_eq_some]
    simp only [names, decide_eq_true_eq, Bool.not_eq_true', decide_eq_false_iff_not, List.mem_range]
    exact ⟨trivial, inside, fun other before => by omega⟩
  rw [fileOf?, found, Option.bind_some, List.getElem?_eq_getElem inside]

omit [Number α] in
theorem fileOf?_label (inputs : List Path) (segment : Segment α) :
    fileOf? inputs segment.label = none := by
  have notFound : (List.range inputs.length).find? (fun input =>
      toString input ++ ":a" = segment.label) = none := by
    refine List.find?_eq_none.mpr fun input _ same => ?_
    have chars := congrArg String.toList (of_decide_eq_true same)
    rw [String.toList_append, toList_toString_nat, Segment.toList_label] at chars
    have letter : 'c' ∈ Nat.toDigits 10 input ++ ":a".toList := chars ▸ List.mem_cons_self
    rcases List.mem_append.mp letter with digit | ending
    · exact absurd (isDigit_of_mem_toDigits digit) (by decide)
    · exact absurd ending (by decide)
  rw [fileOf?, notFound, Option.bind_none]

theorem written_of_write {parts : List (Part α)} {written : List (Segment α × String)}
    (writes : (write parts).2 = .ok written) :
    written.map (·.1) = Part.segments parts ∧
      ∀ pair ∈ written, pair.1.chainText = .ok pair.2 := by
  induction parts generalizing written with
  | nil =>
    cases writes
    exact ⟨rfl, by simp⟩
  | cons part rest ih =>
    cases part with
    | silent file => exact ih writes
    | segment segment =>
      rw [write] at writes
      cases chained : segment.chainText with
      | error failure =>
        rw [chained] at writes
        cases writes
      | ok text =>
        rw [chained] at writes
        cases later : (write rest).2 with
        | error failure =>
          simp only [later, Except.map] at writes
          cases writes
        | ok others =>
          simp only [later, Except.map, Except.ok.injEq] at writes
          obtain rfl := writes
          obtain ⟨same, chainedRest⟩ := ih later
          refine ⟨?_, List.forall_mem_cons.mpr ⟨chained, chainedRest⟩⟩
          rw [List.map_cons, same]
          rfl

omit [Number α] in
theorem strandOf?_file (video : Path) {written : List (Segment α × String)} {index : Nat}
    {pair : Segment α × String} (placed : (pair, index) ∈ written.zipIdx) :
    strandOf? (video :: written.map (·.1.file))
      ⟨[toString (index + 1) ++ ":a"], pair.2, [pair.1.label]⟩ = some (pair.1.strand pair.2) := by
  have found : written[index]? = some pair := List.mem_zipIdx_iff_getElem?.mp placed
  obtain ⟨inside, rfl⟩ := List.getElem?_eq_some_iff.mp found
  have more : index + 1 < (video :: written.map (·.1.file)).length := by simpa using inside
  have file := fileOf?_input more
  simp only [strandOf?, List.head?_cons, Option.bind_eq_bind, Option.bind_some, file]
  simp [Segment.strand]

omit [Number α] in
theorem strandOf?_mixer (inputs : List Path) (first : Segment α) (labels : List String)
    (body : String) (sinks : List String) :
    strandOf? inputs ⟨first.label :: labels, body, sinks⟩ = none := by
  simp only [strandOf?, List.head?_cons, Option.bind_eq_bind, Option.bind_some, fileOf?_label,
    Option.bind_none]

theorem filterMap_links (video : Path) {written : List (Segment α × String)}
    (some_segment : written ≠ []) (videoLength : Option α) :
    (links written videoLength).filterMap (strandOf? (video :: written.map (·.1.file))) =
      written.map fun pair => pair.1.strand pair.2 := by
  have files : (written.zipIdx.map fun placed =>
        (⟨[toString (placed.2 + 1) ++ ":a"], placed.1.2, [placed.1.1.label]⟩ : Link)).filterMap
          (strandOf? (video :: written.map (·.1.file))) =
      (written.zipIdx.map (·.1)).map fun pair => pair.1.strand pair.2 := by
    rw [List.filterMap_map, List.map_map]
    refine Eq.trans (List.filterMap_congr ?_) (congrFun List.filterMap_eq_map _)
    rintro ⟨pair, index⟩ placed
    exact strandOf?_file video placed
  have mixer : strandOf? (video :: written.map (·.1.file))
      ⟨written.map (·.1.label), mixerBody written.length videoLength, ["aout"]⟩ = none := by
    obtain ⟨first, rest, rfl⟩ := List.exists_cons_of_ne_nil some_segment
    exact strandOf?_mixer ..
  rw [links, List.filterMap_append, files, List.zipIdx_map_fst, List.filterMap_cons_none mixer,
    List.filterMap_nil, List.append_nil]

/-- What is read off a mix is what was written into it. -/
theorem strands_ofSegments (video : Path) {written : List (Segment α × String)}
    (plain : ∀ pair ∈ written, Unmarked pair.2.toList ∧ pair.2 ≠ "") (videoLength : Option α) :
    (ofSegments video written videoLength).strands =
      written.map fun pair => pair.1.strand pair.2 := by
  cases written with
  | nil => rfl
  | cons first rest =>
    have inputs : (ofSegments video (first :: rest) videoLength).inputs =
        video :: (first :: rest).map (·.1.file) := by
      simp [ofSegments, Function.comp_def]
    unfold strands
    rw [readGraph_ofSegments video (List.cons_ne_nil _ _) plain, inputs, List.filterMap_map]
    exact filterMap_links video (List.cons_ne_nil _ _) videoLength

theorem exists_ofSegments {video : Path} {events : List (Event α)} {channels : Channels α}
    {videoLength : Option α} {initial : Table Int α} {mix : Mix}
    (made : (ofTimeline video events channels videoLength initial).2 = .ok mix) :
    ∃ written : List (Segment α × String), mix = ofSegments video written videoLength ∧
      written.map (·.1) = Part.segments (Part.ofTimeline events channels initial) ∧
      (∀ pair ∈ written, pair.1.chainText = .ok pair.2) ∧
      ∀ pair ∈ written, Unmarked pair.2.toList ∧ pair.2 ≠ "" := by
  unfold ofTimeline at made
  cases writes : (write (Part.ofTimeline events channels initial)).2 with
  | error failure =>
    simp only [writes] at made
    cases made
  | ok written =>
    simp only [writes, Except.map, Except.ok.injEq] at made
    obtain ⟨same, chained⟩ := written_of_write writes
    exact ⟨written, made.symm, same, chained, fun pair member =>
      Part.unmarked_chainText (same ▸ List.mem_map_of_mem member) (chained pair member)⟩

theorem exists_strands {video : Path} {events : List (Event α)} {channels : Channels α}
    {videoLength : Option α} {initial : Table Int α} {mix : Mix}
    (made : (ofTimeline video events channels videoLength initial).2 = .ok mix) :
    ∃ written : List (Segment α × String),
      mix.strands = written.map (fun pair => pair.1.strand pair.2) ∧
        written.map (·.1) = Part.segments (Part.ofTimeline events channels initial) ∧
        ∀ pair ∈ written, pair.1.strand? = .ok (pair.1.strand pair.2) := by
  obtain ⟨written, rfl, same, chained, plain⟩ := exists_ofSegments made
  refine ⟨written, strands_ofSegments video plain videoLength, same, fun pair member => ?_⟩
  rw [Segment.strand?, chained pair member]
  rfl

theorem strands_ofTimeline {video : Path} {events : List (Event α)} {channels : Channels α}
    {videoLength : Option α} {initial : Table Int α} {mix : Mix}
    (made : (ofTimeline video events channels videoLength initial).2 = .ok mix) :
    mix.strands.map .ok =
      (Part.segments (Part.ofTimeline events channels initial)).map Segment.strand? := by
  obtain ⟨written, strands, same, texts⟩ := exists_strands made
  rw [strands, ← same, List.map_map, List.map_map]
  exact List.map_congr_left fun pair member => (texts pair member).symm

theorem strandsOn_ofTimeline {video : Path} {events : List (Event α)} {channels : Channels α}
    {videoLength : Option α} {initial : Table Int α} {mix : Mix}
    (made : (ofTimeline video events channels videoLength initial).2 = .ok mix) (id : Int) :
    (mix.strandsOn id).map .ok =
      ((Part.segments (Part.ofTimeline events channels initial)).filter
        (·.channel == id)).map Segment.strand? := by
  obtain ⟨written, strands, same, texts⟩ := exists_strands made
  have onChannel : (fun strand : Strand => strand.isOn id) ∘
      (fun pair : Segment α × String => pair.1.strand pair.2) =
      (fun segment : Segment α => segment.channel == id) ∘ (·.1) :=
    funext fun pair => pair.1.isOn_strand pair.2 id
  rw [strandsOn, strands, ← same, List.filter_map, List.filter_map, onChannel, List.map_map,
    List.map_map]
  exact List.map_congr_left fun pair member => (texts pair (List.mem_filter.mp member).1).symm

theorem exists_mix (video : Path) {events : List (Event α)} {channels : Channels α}
    (videoLength : Option α) {initial : Table Int α}
    (texts : ∀ segment ∈ Part.segments (Part.ofTimeline events channels initial),
      ∃ strand, segment.strand? = .ok strand) :
    ∃ mix, (ofTimeline video events channels videoLength initial).2 = .ok mix := by
  have chained : ∀ segment ∈ Part.segments (Part.ofTimeline events channels initial),
      ∃ text, segment.chainText = .ok text := by
    intro segment member
    obtain ⟨strand, isStrand⟩ := texts segment member
    cases text : segment.chainText with
    | ok found => exact ⟨found, rfl⟩
    | error failure =>
      rw [Segment.strand?, text] at isStrand
      cases isStrand
  obtain ⟨written, writes, _, _⟩ := exists_written chained
  refine ⟨ofSegments video written videoLength, ?_⟩
  simp only [ofTimeline, writes]
  rfl

end Mix

/-- Whether two timelines with their channels are the same as far as one channel is concerned. -/
structure SameOn (id : Int) (events other : List (Event α)) (channels channels' : Channels α)
    (initial initial' : Table Int α) : Prop where
  events : events.filter (·.channel == id) = other.filter (·.channel == id)
  channel : channels.get id = channels'.get id
  volume : (initial.find? id).getD (channels.get id).volume =
    (initial'.find? id).getD (channels'.get id).volume

namespace SameOn

variable {events other : List (Event α)} {channels channels' : Channels α}
  {initial initial' : Table Int α}

theorem segmentsOn {id : Int}
    (same : SameOn id events other channels channels' initial initial') :
    Part.segmentsOn channels initial id (events.filter (·.channel == id)) =
      Part.segmentsOn channels' initial' id (other.filter (·.channel == id)) := by
  unfold Part.segmentsOn
  dsimp only
  rw [same.events, same.volume, same.channel]

theorem heardOn {id : Int}
    (same : SameOn id events other channels channels' initial initial') :
    id ∈ events.map (·.channel) ↔ id ∈ other.map (·.channel) := by
  have onChannel : ∀ timeline : List (Event α),
      id ∈ timeline.map (·.channel) ↔ timeline.filter (·.channel == id) ≠ [] := by
    intro timeline
    simp [List.filter_eq_nil_iff]
  rw [onChannel, onChannel, same.events]

/-- Timelines that are the same on every channel have the same segments, but for their order. -/
theorem segments_perm
    (same : ∀ id, SameOn id events other channels channels' initial initial') :
    (Part.segments (Part.ofTimeline events channels initial)).Perm
      (Part.segments (Part.ofTimeline other channels' initial')) := by
  have heard : ((events.map (·.channel)).eraseDups).Perm (other.map (·.channel)).eraseDups :=
    (List.perm_ext_iff_of_nodup (nodup_eraseDups _) (nodup_eraseDups _)).mpr fun id => by
      rw [List.mem_eraseDups, List.mem_eraseDups, (same id).heardOn]
  rw [Part.segments_ofTimeline, Part.segments_ofTimeline,
    funext fun id => (same id).segmentsOn]
  exact heard.flatMap_right _

end SameOn

namespace Mix

/-- What goes into a mix on a channel hangs on what happens on that channel, not on the other
channels nor on how the events of the channels fall between each other. Of two timelines that differ
in nothing but this either both make a mix or none, and the strands are the same but for their
order. -/
theorem strands_of_sameOn {video : Path} {events : List (Event α)} {channels : Channels α}
    {videoLength : Option α} {initial : Table Int α} {mix : Mix}
    (made : (ofTimeline video events channels videoLength initial).2 = .ok mix)
    (video' : Path) (other : List (Event α)) (channels' : Channels α) (videoLength' : Option α)
    (initial' : Table Int α) :
    (∀ id, SameOn id events other channels channels' initial initial' →
      ∀ mix', (ofTimeline video' other channels' videoLength' initial').2 = .ok mix' →
        mix.strandsOn id = mix'.strandsOn id) ∧
    ((∀ id, SameOn id events other channels channels' initial initial') →
      ∃ mix', (ofTimeline video' other channels' videoLength' initial').2 = .ok mix' ∧
        mix.strands.Perm mix'.strands) := by
  have injective : Function.Injective (Except.ok : Strand → Except Failure Strand) :=
    fun _ _ same => Except.ok.inj same
  constructor
  · intro id same mix' made'
    refine List.map_injective_iff.mpr injective ?_
    rw [strandsOn_ofTimeline made, strandsOn_ofTimeline made', Part.segments_ofTimeline_channel,
      Part.segments_ofTimeline_channel, same.segmentsOn]
  · intro same
    have segments := (SameOn.segments_perm same).map Segment.strand?
    have texts : ∀ segment ∈ Part.segments (Part.ofTimeline other channels' initial'),
        ∃ strand, segment.strand? = .ok strand := by
      intro segment member
      have among := segments.mem_iff.mpr (List.mem_map_of_mem member)
      rw [← strands_ofTimeline made] at among
      obtain ⟨strand, _, isStrand⟩ := List.mem_map.mp among
      exact ⟨strand, isStrand.symm⟩
    obtain ⟨mix', made'⟩ := exists_mix video' videoLength' texts
    refine ⟨mix', made', (List.map_perm_map_iff injective).mp ?_⟩
    rw [strands_ofTimeline made, strands_ofTimeline made']
    exact segments

/-- A clip with a swell on one channel and two clips on another, once in turns and once one channel
after the other, with a longer video. -/
theorem strands_of_sameOn_interleaved :
    let clip (name : String) (length : Rat) : Action Rat :=
      .play ⟨some ⟨.root, [name]⟩, 0, 0, false, none, length, 0⟩
    let swell : Action Rat := .volume (some (.amount 2)) 500
    let events : List (Event Rat) := [⟨3, 0, clip "a.mp3" 1000⟩, ⟨2, 100, clip "b.mp3" 2000⟩,
      ⟨2, 600, swell⟩, ⟨3, 700, .stop 100⟩, ⟨3, 900, clip "c.mp3" 1000⟩]
    let other : List (Event Rat) := [⟨2, 100, clip "b.mp3" 2000⟩, ⟨2, 600, swell⟩,
      ⟨3, 0, clip "a.mp3" 1000⟩, ⟨3, 700, .stop 100⟩, ⟨3, 900, clip "c.mp3" 1000⟩]
    ∃ mix mix', (ofTimeline ⟨.root, ["v.mp4"]⟩ events [] (some 10) []).2 = .ok mix ∧
      (ofTimeline ⟨.root, ["v.mp4"]⟩ other [] (some 20) []).2 = .ok mix' ∧
      mix.strandsOn 2 = mix'.strandsOn 2 ∧ mix.strands.Perm mix'.strands := by
  intro clip swell events other
  have finite : ∀ event ∈ events, event.IsFinite := by
    intro event member
    simp only [events, List.mem_cons, List.not_mem_nil, or_false] at member
    rcases member with rfl | rfl | rfl | rfl | rfl
    · exact ⟨rfl, rfl, rfl, nofun, rfl, rfl⟩
    · exact ⟨rfl, rfl, rfl, nofun, rfl, rfl⟩
    · refine ⟨rfl, ?_, rfl⟩
      rintro _ ⟨⟩
      rfl
    · exact ⟨rfl, rfl⟩
    · exact ⟨rfl, rfl, rfl, nofun, rfl, rfl⟩
  have same : ∀ id, SameOn id events other [] [] [] [] := by
    intro id
    refine ⟨?_, rfl, rfl⟩
    by_cases two : 2 = id
    · subst two
      rfl
    · simp only [events, other, List.filter_cons, beq_eq_false_iff_ne.mpr two]
      rfl
  have texts : ∀ segment ∈ Part.segments (Part.ofTimeline events [] []),
      ∃ strand, segment.strand? = .ok strand := by
    intro segment member
    obtain ⟨text, isText, _⟩ := Part.exists_chainText finite [] [] member
    exact ⟨segment.strand text, by rw [Segment.strand?, isText]; rfl⟩
  obtain ⟨mix, made⟩ := exists_mix ⟨.root, ["v.mp4"]⟩ (some 10) texts
  obtain ⟨onChannel, onAll⟩ := strands_of_sameOn made ⟨.root, ["v.mp4"]⟩ other [] (some 20) []
  obtain ⟨mix', made', strands⟩ := onAll same
  exact ⟨mix, mix', made, made', onChannel 2 (same 2) mix' made', strands⟩

end Mix

end Screencast
