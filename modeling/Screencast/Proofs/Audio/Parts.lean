import Mathlib.Data.List.Basic
import Screencast.Audio.Mix

/-!
The segments of a mix, play by play. On a channel they are its plays that have a sound, in the order
in which they were recorded; the channels follow one another in the order of their first events.
-/

namespace Screencast

/-- Things by their keys: the keys in the order in which they first come, under each its things. -/
def grouped {β κ : Type} [BEq κ] (key : β → κ) (xs : List β) : List β :=
  (xs.map key).eraseDups.flatMap fun k => xs.filter (key · == k)

section Groups

variable {β κ : Type} [BEq κ] [LawfulBEq κ]

theorem nodup_eraseDups (keys : List κ) : keys.eraseDups.Nodup := by
  cases keys with
  | nil => exact List.nodup_nil
  | cons first rest =>
    rw [List.eraseDups_cons]
    refine List.nodup_cons.mpr ⟨?_, nodup_eraseDups _⟩
    simp [List.mem_eraseDups]
termination_by keys.length
decreasing_by
  have shorter := List.length_filter_le (fun key => !key == first) rest
  simp only [List.length_cons]
  omega

theorem flatMap_filter_of_notMem {key : β → κ} {keys : List κ} {first : κ}
    (fresh : first ∉ keys) (xs : List β) :
    (keys.flatMap fun k => (xs.filter fun x => !key x == first).filter (key · == k)) =
      keys.flatMap fun k => xs.filter (key · == k) := by
  rw [List.flatMap_def, List.flatMap_def]
  congr 1
  refine List.map_congr_left fun k member => ?_
  rw [List.filter_filter]
  refine List.filter_congr fun x _ => ?_
  by_cases same : key x == k
  · have other : ¬ key x == first := by
      intro isFirst
      rw [← eq_of_beq same, eq_of_beq isFirst] at member
      exact fresh member
    simp [same, other]
  · simp [same]

theorem flatMap_filter_perm {key : β → κ} {keys : List κ} (distinct : keys.Nodup) {xs : List β}
    (covered : ∀ x ∈ xs, key x ∈ keys) :
    (keys.flatMap fun k => xs.filter (key · == k)).Perm xs := by
  induction keys generalizing xs with
  | nil =>
    have empty : xs = [] := List.eq_nil_iff_forall_not_mem.mpr fun x member => by
      simpa using covered x member
    rw [empty]
    exact .refl _
  | cons first rest ih =>
    obtain ⟨fresh, distinctRest⟩ := List.nodup_cons.mp distinct
    rw [List.flatMap_cons, ← flatMap_filter_of_notMem fresh]
    have inRest : ∀ x ∈ xs.filter fun x => !key x == first, key x ∈ rest := by
      intro x member
      obtain ⟨inside, notFirst⟩ := List.mem_filter.mp member
      refine (List.mem_cons.mp (covered x inside)).resolve_left fun isFirst => ?_
      simp [isFirst] at notFirst
    exact ((ih distinctRest inRest).append_left _).trans
      (List.filter_append_perm (key · == first) xs)

theorem grouped_perm (key : β → κ) (xs : List β) : (grouped key xs).Perm xs :=
  flatMap_filter_perm (nodup_eraseDups _) fun x member => by
    simpa [List.mem_eraseDups] using ⟨x, member, rfl⟩

theorem filter_flatMap_of_key {γ : Type} {make : κ → List γ} {key : γ → κ}
    (made : ∀ k, ∀ y ∈ make k, key y = k) {keys : List κ} (distinct : keys.Nodup) {k : κ}
    (member : k ∈ keys) : (keys.flatMap make).filter (key · == k) = make k := by
  have own : (make k).filter (key · == k) = make k :=
    List.filter_eq_self.mpr fun y inside => by simp [made k y inside]
  have foreign : ∀ other ≠ k, (make other).filter (key · == k) = [] := fun other differs =>
    List.filter_eq_nil_iff.mpr fun y inside => by simp [made other y inside, differs]
  induction keys with
  | nil => cases member
  | cons first rest ih =>
    obtain ⟨fresh, distinctRest⟩ := List.nodup_cons.mp distinct
    rw [List.flatMap_cons, List.filter_append]
    rcases List.mem_cons.mp member with rfl | later
    · have none : (rest.flatMap make).filter (key · == k) = [] := by
        rw [List.filter_flatMap, List.flatMap_eq_nil_iff]
        exact fun other inside => foreign other fun same => fresh (same ▸ inside)
      rw [own, none, List.append_nil]
    · rw [foreign first fun same => fresh (same ▸ later), ih distinctRest later, List.nil_append]

end Groups

variable {α : Type} [Number α]

def Event.sound? (event : Event α) : Option (Path × Clip α) :=
  match event.action with
  | .play clip => if clip.length ≤ 0 then none else clip.file.map (·, clip)
  | _ => none

theorem Event.action_of_sound {event : Event α} {file : Path} {clip : Clip α}
    (sound : event.sound? = some (file, clip)) : event.action = .play clip := by
  unfold sound? at sound
  split at sound
  · next played action =>
    rw [action]
    split at sound
    · cases sound
    · obtain ⟨_, _, same⟩ := Option.map_eq_some_iff.mp sound
      rw [(Prod.mk.inj same).2]
  · cases sound

/-- A play that is heard, with the stop that follows it on its channel if there is one. -/
structure Heard (α : Type) where
  file : Path
  clip : Clip α
  time : α
  stop : Option (α × α)

namespace Heard

def ofEvents : List (Event α) → List (Heard α)
  | [] => []
  | event :: later =>
    match event.sound? with
    | some (file, clip) =>
      ⟨file, clip, event.time, later.findSome? (Event.stopsFrom event.time)⟩ :: ofEvents later
    | none => ofEvents later

def toSegment (heard : Heard α) (channel : Channel α) (id : Int) (curve : Option (Curve α))
    (index : Nat) : Segment α :=
  ⟨id, index, heard.file, Segment.chainOf heard.clip heard.time heard.stop channel curve⟩

theorem ofEvents_files (events : List (Event α)) :
    (ofEvents events).map Heard.file = (events.filterMap Event.sound?).map (·.1) := by
  induction events with
  | nil => rfl
  | cons event later ih =>
    cases sound : event.sound? with
    | none => simp [ofEvents, sound, ih]
    | some found => simp [ofEvents, sound, ih]

/-- The play at a place among the events, behind as many as are heard before it. -/
theorem ofEvents_append (before later : List (Event α)) {event : Event α} {file : Path}
    {clip : Clip α} (sound : event.sound? = some (file, clip)) :
    (ofEvents (before ++ event :: later))[(before.filterMap Event.sound?).length]? =
      some ⟨file, clip, event.time, later.findSome? (Event.stopsFrom event.time)⟩ := by
  induction before with
  | nil => simp [ofEvents, sound]
  | cons first before ih =>
    cases firstSound : first.sound? with
    | none => simp [ofEvents, firstSound, ih]
    | some found => simp [ofEvents, firstSound, ih]

theorem exists_split {events : List (Event α)} {heard : Heard α}
    (member : heard ∈ ofEvents events) :
    ∃ before event later, events = before ++ event :: later ∧
      event.sound? = some (heard.file, heard.clip) ∧ event.time = heard.time ∧
      heard.stop = later.findSome? (Event.stopsFrom event.time) := by
  induction events with
  | nil => cases member
  | cons event later ih =>
    have firstOrLater : (event.sound? = some (heard.file, heard.clip) ∧ event.time = heard.time ∧
        heard.stop = later.findSome? (Event.stopsFrom event.time)) ∨ heard ∈ ofEvents later := by
      unfold ofEvents at member
      split at member
      · next file clip sound =>
        rcases List.mem_cons.mp member with rfl | inLater
        · exact .inl ⟨sound, rfl, rfl⟩
        · exact .inr inLater
      · exact .inr member
    rcases firstOrLater with first | inLater
    · exact ⟨[], event, later, rfl, first⟩
    · obtain ⟨before, other, rest, rfl, found⟩ := ih inLater
      exact ⟨event :: before, other, rest, rfl, found⟩

end Heard

theorem Segment.eq_fadeOut {clip : Clip α} {time : α} {stop : Option (α × α)} {filter : Filter α}
    (made : fadeOut? clip time stop = some filter) :
    ∃ start length, filter = .fadeOut start length := by
  unfold fadeOut? at made
  dsimp only at made
  split at made
  · obtain ⟨_, isFade⟩ := Option.ite_none_right_eq_some.mp made
    exact ⟨_, _, (Option.some_inj.mp isFade).symm⟩
  · cases made

theorem Segment.volume_or_automation {clip : Clip α} {channel : Channel α}
    {curve : Option (Curve α)} {filter : Filter α}
    (member : filter ∈ volumeFilters clip channel curve) :
    (∃ level, filter = .volume level) ∨
      ∃ automation, curve = some automation ∧ filter = .automation automation := by
  unfold volumeFilters at member
  split at member
  · next level _ =>
    split at member
    · cases member
    · exact .inl ⟨level, List.mem_singleton.mp member⟩
  · next automation _ => exact .inr ⟨automation, rfl, List.mem_singleton.mp member⟩
  · split at member
    · cases member
    · exact .inl ⟨_, List.mem_singleton.mp member⟩

namespace Part

def segment? : Part α → Option (Segment α)
  | segment s => some s
  | silent _ => none

def segments (parts : List (Part α)) : List (Segment α) :=
  parts.filterMap segment?

/-- On a channel one heard play after another becomes a segment. -/
theorem segments_ofEvents (channel : Channel α) (id : Int) (curve : Option (Curve α)) (index : Nat)
    (events : List (Event α)) :
    segments (ofEvents channel id curve index events) =
      ((Heard.ofEvents events).zipIdx index).map fun (heard, index) =>
        heard.toSegment channel id curve index := by
  induction events generalizing index with
  | nil => rfl
  | cons event later ih =>
    rw [Heard.ofEvents, ofEvents]
    cases action : event.action with
    | stop fadeOut => simp only [Event.sound?, action, ih]
    | volume level ramp => simp only [Event.sound?, action, ih]
    | play clip =>
      cases file : clip.file with
      | none => simp [Event.sound?, action, file, ih]
      | some file =>
        by_cases empty : clip.length ≤ 0
        · simp only [Event.sound?, action, file, empty, if_true]
          rw [← ih]
          rfl
        · simp only [Event.sound?, action, file, empty, if_false, Option.map_some,
            List.zipIdx_cons, List.map_cons]
          rw [← ih]
          rfl

def segmentsOn (channels : Channels α) (initial : Table Int α) (id : Int)
    (events : List (Event α)) : List (Segment α) :=
  let channel := channels.get id
  let curve := Automation.ofEvents ((initial.find? id).getD channel.volume) events
  if channel.output.isMixed then
    (Heard.ofEvents events).zipIdx.map fun (heard, index) =>
      heard.toSegment channel id curve index
  else []

theorem segments_ofChannel (channels : Channels α) (initial : Table Int α) (id : Int)
    (events : List (Event α)) :
    segments (ofChannel channels initial id events) = segmentsOn channels initial id events := by
  by_cases mixed : (channels.get id).output.isMixed = true
  · simp only [ofChannel, segmentsOn, mixed, if_true]
    exact segments_ofEvents ..
  · simp only [ofChannel, segmentsOn, mixed]
    rfl

theorem segments_ofTimeline (events : List (Event α)) (channels : Channels α)
    (initial : Table Int α) :
    segments (ofTimeline events channels initial) =
      (events.map (·.channel)).eraseDups.flatMap fun id =>
        segmentsOn channels initial id (events.filter (·.channel == id)) := by
  unfold ofTimeline segments
  rw [List.filterMap_flatMap]
  congr 1
  exact funext fun id => segments_ofChannel ..

theorem channel_of_mem_segmentsOn {channels : Channels α} {initial : Table Int α} {id : Int}
    {events : List (Event α)} {segment : Segment α}
    (member : segment ∈ segmentsOn channels initial id events) : segment.channel = id := by
  by_cases mixed : (channels.get id).output.isMixed = true
  · simp only [segmentsOn, mixed, if_true] at member
    obtain ⟨_, _, rfl⟩ := List.mem_map.mp member
    rfl
  · simp [segmentsOn, mixed] at member

/-- A channel's segments in the mix come from its own events alone. -/
theorem segments_ofTimeline_channel (events : List (Event α)) (channels : Channels α)
    (initial : Table Int α) (id : Int) :
    (segments (ofTimeline events channels initial)).filter (·.channel == id) =
      segmentsOn channels initial id (events.filter (·.channel == id)) := by
  rw [segments_ofTimeline]
  by_cases member : id ∈ events.map (·.channel)
  · exact filter_flatMap_of_key
      (fun _ _ made => channel_of_mem_segmentsOn made) (nodup_eraseDups _)
      (List.mem_eraseDups.mpr member)
  · have absent : events.filter (·.channel == id) = [] :=
      List.filter_eq_nil_iff.mpr fun event inEvents onChannel =>
        member (List.mem_map.mpr ⟨event, inEvents, eq_of_beq onChannel⟩)
    have none : segmentsOn channels initial id [] = [] := by
      simp [segmentsOn, Heard.ofEvents]
    rw [absent, none, List.filter_flatMap, List.flatMap_eq_nil_iff]
    refine fun other inChannels => List.filter_eq_nil_iff.mpr fun segment inSegments onChannel => ?_
    have isOther := channel_of_mem_segmentsOn inSegments
    rw [eq_of_beq onChannel] at isOther
    exact member (isOther ▸ List.mem_eraseDups.mp inChannels)

theorem mem_segments_iff {events : List (Event α)} {channels : Channels α}
    {initial : Table Int α} {segment : Segment α} :
    segment ∈ segments (ofTimeline events channels initial) ↔
      segment ∈ segmentsOn channels initial segment.channel
        (events.filter (·.channel == segment.channel)) := by
  rw [← segments_ofTimeline_channel, List.mem_filter]
  simp

theorem mem_segmentsOn_iff {channels : Channels α} {initial : Table Int α} {id : Int}
    {events : List (Event α)} {segment : Segment α} :
    segment ∈ segmentsOn channels initial id events ↔
      (channels.get id).output.isMixed = true ∧
        ∃ heard index, (heard, index) ∈ (Heard.ofEvents events).zipIdx ∧
          segment = heard.toSegment (channels.get id) id
            (Automation.ofEvents ((initial.find? id).getD (channels.get id).volume) events)
            index := by
  by_cases mixed : (channels.get id).output.isMixed = true
  · simp only [segmentsOn, mixed, if_true, List.mem_map, Prod.exists, true_and]
    simp only [eq_comm]
  · simp [segmentsOn, mixed]

end Part

end Screencast
