import Mathlib.Data.List.Nodup
import Screencast.Proofs.Audio.Operation

/-!
Sessions that no operation tells apart. Two of them may differ in which channels they have an entry
for, as long as each channel comes out the same, with the same volume to go back to. Every
operation gives the same answer on both and leaves sessions that are alike again.
-/

namespace Screencast

namespace Table

variable {κ ν : Type} [DecidableEq κ] {key other : κ} {value : ν} {table : Table κ ν}

theorem mem_keys_put (member : other ∈ keys (put key value table)) :
    other = key ∨ other ∈ keys table := by
  induction table with
  | nil => exact .inl (List.mem_singleton.mp member)
  | cons entry rest ih =>
    obtain ⟨k, v⟩ := entry
    rw [put] at member
    split at member
    · exact .inr member
    · rcases List.mem_cons.mp member with rfl | later
      · exact .inr (List.mem_cons_self ..)
      · exact (ih later).imp_right (List.mem_cons_of_mem _)

theorem nodup_keys_put (nodup : (keys table).Nodup) (key : κ) (value : ν) :
    (keys (put key value table)).Nodup := by
  induction table with
  | nil => exact List.nodup_singleton key
  | cons entry rest ih =>
    obtain ⟨k, v⟩ := entry
    obtain ⟨first, later⟩ := List.nodup_cons.mp nodup
    rw [put]
    split
    · exact nodup
    · next differs =>
      refine List.nodup_cons.mpr ⟨fun member => ?_, ih later⟩
      rcases mem_keys_put member with same | member
      · exact differs same
      · exact first member

theorem find?_eq_none (absent : key ∉ keys table) : find? key table = none := by
  induction table with
  | nil => rfl
  | cons entry rest ih =>
    obtain ⟨k, v⟩ := entry
    obtain ⟨differs, absentRest⟩ := not_or.mp (mt List.mem_cons.mpr absent)
    rw [find?, if_neg (Ne.symm differs)]
    exact ih absentRest

end Table

variable {α β γ : Type} [Number α]

namespace Session

def initialVolume (session : Session α) (id : Int) : α :=
  (session.volumes.find? id).getD (session.channel id).volume

/-- Whether two sessions are the same to all that may be done with them. -/
structure Like (session other : Session α) : Prop where
  base : session.base = other.base
  active : session.active = other.active
  timeline : session.timeline = other.timeline
  start : session.start = other.start
  channel : ∀ id, session.channel id = other.channel id
  initialVolume : ∀ id, session.initialVolume id = other.initialVolume id
  /-- Each of them has noted a channel's first volume once at most. -/
  noted : session.volumes.keys.Nodup ∧ other.volumes.keys.Nodup

theorem channel_addChannel (session : Session α) (channel : Channel α) (id : Int) :
    (session.addChannel channel).channel id =
      if channel.id = id then channel else session.channel id := by
  unfold Session.channel Channels.get addChannel
  rw [Table.find?_put]
  split <;> rfl

theorem initialVolume_addChannel (session : Session α) (channel : Channel α) (id : Int) :
    (session.addChannel channel).initialVolume id =
      if channel.id = id then channel.volume else session.initialVolume id := by
  unfold initialVolume
  rw [channel_addChannel]
  change ((session.volumes.put channel.id channel.volume).find? id).getD _ = _
  rw [Table.find?_put]
  split <;> rfl

theorem initialVolume_setVolume (session : Session α) (time : α) (id : Int) (level ramp : α)
    (other : Int) :
    (session.setVolume time id level ramp).initialVolume other = session.initialVolume other := by
  unfold initialVolume
  rw [channel_setVolume]
  change ((session.keepVolume id).find? other).getD _ = _
  unfold keepVolume
  split
  · next volume noted =>
    by_cases same : id = other
    · subst same
      rw [noted]
      rfl
    · rw [if_neg same]
  · next unnoted =>
    rw [Table.find?_put]
    by_cases same : id = other
    · subst same
      rw [if_pos rfl, unnoted]
      rfl
    · rw [if_neg same, if_neg same]

theorem get_foldl_put {volumes : Table Int α} (noted : volumes.keys.Nodup) (channels : Channels α)
    (id : Int) :
    Channels.get (volumes.foldl (fun channels (id, volume) =>
        channels.put id { Channels.get channels id with volume }) channels) id =
      { channels.get id with volume := (volumes.find? id).getD (channels.get id).volume } := by
  induction volumes generalizing channels with
  | nil => rfl
  | cons entry rest ih =>
    obtain ⟨first, volume⟩ := entry
    obtain ⟨absent, notedRest⟩ := List.nodup_cons.mp noted
    have put : Channels.get (channels.put first { Channels.get channels first with volume }) id =
        if first = id then { Channels.get channels first with volume } else channels.get id := by
      unfold Channels.get
      rw [Table.find?_put]
      split <;> rfl
    rw [List.foldl_cons, ih notedRest, put, Table.find?]
    by_cases same : first = id
    · subst same
      rw [if_pos rfl, if_pos rfl, Table.find?_eq_none absent]
      rfl
    · rw [if_neg same, if_neg same]

theorem channel_reset {session : Session α} (noted : session.volumes.keys.Nodup) (id : Int) :
    session.reset.channel id =
      { session.channel id with volume := session.initialVolume id } :=
  get_foldl_put noted session.channels id

theorem initialVolume_reset {session : Session α} (noted : session.volumes.keys.Nodup) (id : Int) :
    session.reset.initialVolume id = session.initialVolume id := by
  unfold initialVolume
  rw [channel_reset noted]
  change (session.volumes.find? id).getD ((session.volumes.find? id).getD _) = _
  cases session.volumes.find? id <;> rfl

namespace Like

variable {session other : Session α}

theorem refl (noted : session.volumes.keys.Nodup) : session.Like session :=
  ⟨rfl, rfl, rfl, rfl, fun _ => rfl, fun _ => rfl, noted, noted⟩

theorem trans {third : Session α} (left : session.Like other) (right : other.Like third) :
    session.Like third where
  base := left.base.trans right.base
  active := left.active.trans right.active
  timeline := left.timeline.trans right.timeline
  start := left.start.trans right.start
  channel id := (left.channel id).trans (right.channel id)
  initialVolume id := (left.initialVolume id).trans (right.initialVolume id)
  noted := ⟨left.noted.1, right.noted.2⟩

theorem timeAt (like : session.Like other) (clock : α) :
    session.timeAt clock = other.timeAt clock := by
  unfold Session.timeAt
  rw [like.start]

theorem withBase (like : session.Like other) (base : Path) :
    ({ session with base } : Session α).Like { other with base } :=
  { like with base := rfl }

theorem begin (like : session.Like other) (clock : α) :
    (session.begin clock).Like (other.begin clock) :=
  { like with start := rfl }

theorem record (like : session.Like other) (events : List (Event α)) :
    (session.record events).Like (other.record events) :=
  { like with timeline := congrArg (· ++ events) like.timeline }

theorem play (like : session.Like other) (least time : α) (id : Int) (cue : Cue α) :
    (session.play least time id cue).Like (other.play least time id cue) := by
  have giveWay : session.giveWay least time id cue = other.giveWay least time id cue := by
    unfold Session.giveWay
    rw [like.active]
  refine { like with active := ?_, timeline := ?_ }
  · change session.active.put id (cue.toPlaying time (session.channel id).volume) = _
    rw [like.active, like.channel]
    rfl
  · change session.timeline ++ (session.giveWay least time id cue ++ _) = _
    rw [like.timeline, giveWay]
    rfl

theorem stop (like : session.Like other) (time fadeOut : α) (targets : List Int) :
    (session.stop time fadeOut targets).Like (other.stop time fadeOut targets) := by
  unfold Session.stop
  induction targets generalizing session other with
  | nil => exact like
  | cons id rest ih =>
    refine ih { like.record [⟨id, time, .stop fadeOut⟩] with active := ?_ }
    exact congrArg (·.erase id) like.active

theorem keepVolume_noted (noted : session.volumes.keys.Nodup) (id : Int) :
    (session.keepVolume id).keys.Nodup := by
  unfold Session.keepVolume
  split
  · exact noted
  · exact Table.nodup_keys_put noted _ _

theorem setVolume (like : session.Like other) (time : α) (id : Int) (level ramp : α) :
    (session.setVolume time id level ramp).Like (other.setVolume time id level ramp) where
  base := like.base
  active := by
    unfold Session.setVolume
    rw [like.active]
  timeline := congrArg (· ++ _) like.timeline
  start := like.start
  channel other' := by rw [channel_setVolume, channel_setVolume, like.channel, like.channel]
  initialVolume other' := by
    rw [initialVolume_setVolume, initialVolume_setVolume, like.initialVolume]
  noted := ⟨keepVolume_noted like.noted.1 id, keepVolume_noted like.noted.2 id⟩

theorem addChannel (like : session.Like other) (channel : Channel α) :
    (session.addChannel channel).Like (other.addChannel channel) where
  base := like.base
  active := like.active
  timeline := like.timeline
  start := like.start
  channel id := by rw [channel_addChannel, channel_addChannel, like.channel]
  initialVolume id := by rw [initialVolume_addChannel, initialVolume_addChannel, like.initialVolume]
  noted := ⟨Table.nodup_keys_put like.noted.1 _ _, Table.nodup_keys_put like.noted.2 _ _⟩

theorem configured (like : session.Like other) (config : Json) (base : Path) :
    (session.configured config base).1 = (other.configured config base).1 ∧
      (session.configured config base).2.Like (other.configured config base).2 :=
  configured_related Like (fun base like => like.withBase base)
    (fun channel like => like.addChannel channel) like config base

theorem reset (like : session.Like other) : session.reset.Like other.reset where
  base := like.base
  active := rfl
  timeline := rfl
  start := rfl
  channel id := by
    rw [channel_reset like.noted.1, channel_reset like.noted.2, like.channel, like.initialVolume]
  initialVolume id := by
    rw [initialVolume_reset like.noted.1, initialVolume_reset like.noted.2, like.initialVolume]
  noted := like.noted

theorem mix (like : session.Like other) (video : Path) (videoLength : Option α) :
    session.mix video videoLength = other.mix video videoLength := by
  have parts : ∀ id events, Part.ofChannel session.channels session.volumes id events =
      Part.ofChannel other.channels other.volumes id events := by
    intro id events
    have channel : session.channels.get id = other.channels.get id := like.channel id
    have volume : (session.volumes.find? id).getD (session.channels.get id).volume =
        (other.volumes.find? id).getD (other.channels.get id).volume := like.initialVolume id
    unfold Part.ofChannel
    rw [channel] at volume ⊢
    dsimp only
    rw [volume]
  unfold Session.mix Mix.ofTimeline Part.ofTimeline
  simp only [like.timeline, parts]

end Like

end Session

end Screencast
