import Screencast.Proofs.Audio.Parts
import Screencast.Proofs.Text.Unmarked

/-!
The texts of the chains. Every segment of events whose numbers are finite has one, and it has none
of the marks that part the filters of a graph.
-/

namespace Screencast

open Text

variable {α : Type} [Number α]

/-- Whether a declared volume is a finite number, or all or nothing. -/
def Loudness.IsFinite : Loudness α → Prop
  | amount value => Number.isFinite value = true
  | switch _ => True
  | other _ => False

theorem Loudness.exists_amount {level : Loudness α} (finite : level.IsFinite) :
    ∃ amount, level.toAmount = .ok amount := by
  cases level with
  | amount value => exact ⟨value, rfl⟩
  | switch on => exact ⟨_, rfl⟩
  | other value => cases finite

structure Clip.IsFinite (clip : Clip α) : Prop where
  fadeIn : Number.isFinite clip.fadeIn = true
  fadeOut : Number.isFinite clip.fadeOut = true
  volume : ∀ level, clip.volume = some level → level.IsFinite
  length : Number.isFinite clip.length = true
  offset : Number.isFinite clip.offset = true

def Action.IsFinite : Action α → Prop
  | play clip => clip.IsFinite
  | stop fadeOut => Number.isFinite fadeOut = true
  | volume level ramp => (∀ l, level = some l → l.IsFinite) ∧ Number.isFinite ramp = true

structure Event.IsFinite (event : Event α) : Prop where
  time : Number.isFinite event.time = true
  action : event.action.IsFinite

theorem Event.IsFinite.clip {event : Event α} (finite : event.IsFinite) {clip : Clip α}
    (played : event.action = .play clip) : clip.IsFinite := by
  have numbers := finite.action
  rw [played] at numbers
  exact numbers

theorem Text.unmarked_secondsText (ms : α) : Unmarked (secondsText ms).toList :=
  unmarked_numeral _

theorem Text.unmarked_volumeText (volume : α) : Unmarked (volumeText volume).toList :=
  unmarked_numeral _

namespace Filter

def Writes (filter : Filter α) : Prop :=
  ∃ text, filter.toText = .ok text ∧ Unmarked text.toList ∧ text ≠ ""

theorem exists_delayOf {time : α} (finite : Number.isFinite time = true) :
    ∃ ms, delayOf time = .ok ms := by
  unfold Number.isFinite at finite
  unfold delayOf
  cases exact : Number.exact time with
  | nan => simp [exact, Exact.isFinite] at finite
  | infinite negative => simp [exact, Exact.isFinite] at finite
  | ratio negative num den => exact ⟨_, rfl⟩

theorem writes_skip (offset : α) : (skip offset).Writes := by
  refine ⟨_, rfl, ?_, by simp⟩
  simp only [String.toList_append, unmarked_append]
  exact ⟨⟨by decide, unmarked_secondsText _⟩, by decide⟩

theorem writes_loop : (loop : Filter α).Writes :=
  ⟨_, rfl, by decide, by decide⟩

theorem writes_delay {time : α} {ms : Int} (delayed : delayOf time = .ok ms) :
    (delay time).Writes := by
  refine ⟨"adelay=" ++ toString ms ++ "|" ++ toString ms, ?_, ?_, by simp⟩
  · rw [toText, delayed]
    rfl
  · simp only [String.toList_append, unmarked_append]
    exact ⟨⟨⟨by decide, unmarked_int ms⟩, by decide⟩, unmarked_int ms⟩

theorem writes_fadeIn {time : α} {ms : Int} (delayed : delayOf time = .ok ms) (length : α) :
    (fadeIn time length).Writes := by
  refine ⟨"afade=t=in:st=" ++ secondsText (Number.ofInt ms : α) ++ ":d=" ++ secondsText length,
    ?_, ?_, by simp⟩
  · rw [toText, delayed]
    rfl
  · simp only [String.toList_append, unmarked_append]
    exact ⟨⟨⟨by decide, unmarked_secondsText _⟩, by decide⟩, unmarked_secondsText _⟩

theorem writes_fadeOut (start length : α) : (fadeOut start length).Writes := by
  refine ⟨_, rfl, ?_, by simp⟩
  simp only [String.toList_append, unmarked_append]
  exact ⟨⟨⟨by decide, unmarked_secondsText _⟩, by decide⟩, unmarked_secondsText _⟩

theorem writes_cut (time : α) : (cut time).Writes := by
  refine ⟨_, rfl, ?_, by simp⟩
  simp only [String.toList_append, unmarked_append]
  exact ⟨by decide, unmarked_secondsText _⟩

theorem writes_volume {level : Loudness α} {amount : α} (found : level.toAmount = .ok amount) :
    (volume level).Writes := by
  refine ⟨"volume=" ++ volumeText amount, ?_, ?_, by simp⟩
  · rw [toText, found]
    rfl
  · simp only [String.toList_append, unmarked_append]
    exact ⟨by decide, unmarked_volumeText _⟩

theorem writes_automation {curve : Curve α} (writes : curve.Writes) :
    (automation curve).Writes := by
  obtain ⟨text, rendered, plain⟩ := writes
  refine ⟨"volume=volume='" ++ text ++ "':eval=frame", ?_, ?_, by simp⟩
  · rw [toText, rendered]
    rfl
  · simp only [String.toList_append, unmarked_append]
    exact ⟨⟨by decide, plain⟩, by decide⟩

theorem writes_of_toText {filter : Filter α} {text : String} (written : filter.toText = .ok text)
    (curves : ∀ curve, filter = automation curve → curve.Writes) : filter.Writes := by
  cases filter with
  | skip offset => exact writes_skip offset
  | loop => exact writes_loop
  | fadeOut start length => exact writes_fadeOut start length
  | cut time => exact writes_cut time
  | automation curve => exact writes_automation (curves curve rfl)
  | delay time =>
    cases delayed : delayOf time with
    | ok ms => exact writes_delay delayed
    | error failure =>
      rw [toText, delayed] at written
      cases written
  | fadeIn time length =>
    cases delayed : delayOf time with
    | ok ms => exact writes_fadeIn delayed length
    | error failure =>
      rw [toText, delayed] at written
      cases written
  | volume level =>
    cases found : level.toAmount with
    | ok amount => exact writes_volume found
    | error failure =>
      rw [toText, found] at written
      cases written

end Filter

theorem Automation.writes_of_ofEvents {initial : α} {events : List (Event α)} {curve : Curve α}
    (made : ofEvents initial events = some curve) : curve.Writes := by
  unfold ofEvents at made
  split at made
  · cases made
  · obtain rfl := Option.some_inj.mp made
    exact .piecewise (by decide) (by decide) _

namespace Segment

theorem writes_of_mem_ite {condition : Prop} [Decidable condition] {filter made : Filter α}
    (member : filter ∈ if condition then [made] else []) (writes : made.Writes) :
    filter.Writes := by
  split at member
  · rw [List.mem_singleton.mp member]
    exact writes
  · cases member

theorem writes_of_mem_volumeFilters {clip : Clip α} (finite : clip.IsFinite) (channel : Channel α)
    {curve : Option (Curve α)} (writes : ∀ c, curve = some c → c.Writes) :
    ∀ filter ∈ volumeFilters clip channel curve, filter.Writes := by
  intro filter member
  unfold volumeFilters at member
  split at member
  · next level own =>
    obtain ⟨amount, found⟩ := Loudness.exists_amount (finite.volume level own)
    split at member
    · cases member
    · rw [List.mem_singleton.mp member]
      exact Filter.writes_volume found
  · next automation _ =>
    rw [List.mem_singleton.mp member]
    exact Filter.writes_automation (writes automation rfl)
  · split at member
    · cases member
    · rw [List.mem_singleton.mp member]
      exact Filter.writes_volume rfl

theorem writes_of_mem_chainOf {clip : Clip α} (finite : clip.IsFinite) {time : α}
    (timeFinite : Number.isFinite time = true) (stop : Option (α × α)) (channel : Channel α)
    {curve : Option (Curve α)} (writes : ∀ c, curve = some c → c.Writes) :
    ∀ filter ∈ chainOf clip time stop channel curve, filter.Writes := by
  intro filter member
  obtain ⟨ms, delayed⟩ := Filter.exists_delayOf timeFinite
  unfold chainOf at member
  simp only [List.mem_append] at member
  rcases member with (((((skips | loops) | delays) | fadesIn) | fadesOut) | cuts) | volumes
  · exact writes_of_mem_ite skips (Filter.writes_skip _)
  · exact writes_of_mem_ite loops Filter.writes_loop
  · rw [List.mem_singleton.mp delays]
    exact Filter.writes_delay delayed
  · exact writes_of_mem_ite fadesIn (Filter.writes_fadeIn delayed _)
  · obtain ⟨start, length, rfl⟩ := eq_fadeOut (Option.mem_toList.mp fadesOut)
    exact Filter.writes_fadeOut ..
  · obtain ⟨cut, _, rfl⟩ := Option.map_eq_some_iff.mp (Option.mem_toList.mp cuts)
    exact Filter.writes_cut _
  · exact writes_of_mem_volumeFilters finite channel writes filter volumes

theorem exists_texts {chain : List (Filter α)} (writes : ∀ filter ∈ chain, filter.Writes) :
    ∃ texts, chain.mapM Filter.toText = .ok texts ∧ texts.length = chain.length ∧
      ∀ text ∈ texts, Unmarked text.toList ∧ text ≠ "" := by
  induction chain with
  | nil => exact ⟨[], rfl, rfl, by simp⟩
  | cons filter rest ih =>
    obtain ⟨text, written, plain⟩ := writes filter (by simp)
    obtain ⟨texts, writtenRest, sameLength, plainRest⟩ :=
      ih fun other member => writes other (List.mem_cons_of_mem _ member)
    refine ⟨text :: texts, ?_, by simp [sameLength], List.forall_mem_cons.mpr ⟨plain, plainRest⟩⟩
    rw [List.mapM_cons, written, writtenRest]
    rfl

theorem intercalate_ne_empty (separator : String) {first : String} (nonempty : first ≠ "")
    (rest : List String) : String.intercalate separator (first :: rest) ≠ "" := by
  cases rest with
  | nil => simpa using nonempty
  | cons second rest => simp [String.intercalate_cons_cons, nonempty]

theorem exists_chainText {segment : Segment α} (some_filter : segment.chain ≠ [])
    (writes : ∀ filter ∈ segment.chain, filter.Writes) :
    ∃ text, segment.chainText = .ok text ∧ Unmarked text.toList ∧ text ≠ "" := by
  obtain ⟨texts, written, sameLength, plain⟩ := exists_texts writes
  refine ⟨String.intercalate "," texts, by rw [chainText, written]; rfl, ?_, ?_⟩
  · rw [String.toList_intercalate]
    refine unmarked_intercalate (by decide) fun text member => ?_
    obtain ⟨original, inTexts, rfl⟩ := List.mem_map.mp member
    exact (plain original inTexts).1
  · cases texts with
    | nil => exact absurd (List.length_eq_zero_iff.mp sameLength.symm) some_filter
    | cons first rest => exact intercalate_ne_empty _ (plain first (by simp)).2 rest

theorem exists_toText {segment : Segment α} {text : String}
    (written : segment.chainText = .ok text) :
    ∀ filter ∈ segment.chain, ∃ part, filter.toText = .ok part := by
  unfold chainText at written
  generalize segment.chain = chain at written
  cases made : chain.mapM Filter.toText with
  | error failure =>
    rw [made] at written
    cases written
  | ok texts =>
    clear written
    induction chain generalizing texts with
    | nil => exact fun _ member => nomatch member
    | cons first rest ih =>
      rw [List.mapM_cons] at made
      cases firstMade : first.toText with
      | error failure =>
        rw [firstMade] at made
        cases made
      | ok part =>
        cases restMade : rest.mapM Filter.toText with
        | error failure =>
          rw [firstMade, restMade] at made
          cases made
        | ok parts => exact List.forall_mem_cons.mpr ⟨⟨part, firstMade⟩, ih parts restMade⟩

theorem automation_of_mem_chainOf {clip : Clip α} {time : α} {stop : Option (α × α)}
    {channel : Channel α} {curve : Option (Curve α)} {automation : Curve α}
    (member : .automation automation ∈ chainOf clip time stop channel curve) :
    curve = some automation := by
  have fade : fadeOut? clip time stop ≠ some (.automation automation) := fun made => by
    obtain ⟨_, _, other⟩ := eq_fadeOut made
    cases other
  have inVolume : .automation automation ∈ volumeFilters clip channel curve := by
    simpa [chainOf, fade] using member
  obtain ⟨_, other⟩ | ⟨own, isCurve, same⟩ := volume_or_automation inVolume
  · cases other
  · rw [isCurve, Filter.automation.inj same]

theorem chainOf_ne_nil (clip : Clip α) (time : α) (stop : Option (α × α)) (channel : Channel α)
    (curve : Option (Curve α)) : chainOf clip time stop channel curve ≠ [] := by
  simp [chainOf]

end Segment

namespace Part

variable {events : List (Event α)} {channels : Channels α} {initial : Table Int α}
  {segment : Segment α}

/-- Where a segment comes from: a play that is heard among the events of its channel. -/
theorem exists_heard (member : segment ∈ segments (ofTimeline events channels initial)) :
    ∃ id index volume, ∃ heard ∈ Heard.ofEvents (events.filter (·.channel == id)),
      segment = heard.toSegment (channels.get id) id
        (Automation.ofEvents volume (events.filter (·.channel == id))) index := by
  obtain ⟨_, heard, index, inHeard, same⟩ := mem_segmentsOn_iff.mp (mem_segments_iff.mp member)
  exact ⟨_, index, _, heard, List.fst_mem_of_mem_zipIdx inHeard, same⟩

theorem exists_chainText (finite : ∀ event ∈ events, event.IsFinite) (channels : Channels α)
    (initial : Table Int α) (member : segment ∈ segments (ofTimeline events channels initial)) :
    ∃ text, segment.chainText = .ok text ∧ Unmarked text.toList ∧ text ≠ "" := by
  obtain ⟨id, index, volume, heard, inHeard, rfl⟩ := exists_heard member
  obtain ⟨before, event, later, split, sound, time, _⟩ := Heard.exists_split inHeard
  have inEvents : event ∈ events.filter (·.channel == id) := by simp [split]
  have action := Event.action_of_sound sound
  have numbers := finite event (List.mem_filter.mp inEvents).1
  refine Segment.exists_chainText (Segment.chainOf_ne_nil heard.clip heard.time heard.stop _ _) ?_
  exact Segment.writes_of_mem_chainOf (numbers.clip action) (time ▸ numbers.time) heard.stop _
    fun curve made => Automation.writes_of_ofEvents made

/-- A segment that has a text has one without marks, whatever its numbers are. -/
theorem unmarked_chainText (member : segment ∈ segments (ofTimeline events channels initial))
    {text : String} (written : segment.chainText = .ok text) :
    Unmarked text.toList ∧ text ≠ "" := by
  have texts := Segment.exists_toText written
  obtain ⟨id, index, volume, heard, _, rfl⟩ := exists_heard member
  obtain ⟨same, isText, plain⟩ := Segment.exists_chainText
    (Segment.chainOf_ne_nil heard.clip heard.time heard.stop _ _) fun filter inChain => by
      obtain ⟨part, made⟩ := texts filter inChain
      refine Filter.writes_of_toText made fun curve isCurve => ?_
      subst isCurve
      exact Automation.writes_of_ofEvents (Segment.automation_of_mem_chainOf inChain)
  obtain rfl := Except.ok.inj (isText.symm.trans written)
  exact plain

end Part

end Screencast
