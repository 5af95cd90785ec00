import Screencast.Proofs.Audio.Declaring

/-!
Trying a configuration again. What a failed configuration has left is still there when it is mended
and done once more: its clips stand on the timeline before the new ones, and its channels stay as it
put them in unless the mended configuration names them too. All else is as if it had not been tried.
-/

namespace Screencast

variable {α : Type} [Number α]

namespace Studio

def SameClip (event other : Event α) : Prop :=
  ∃ (declared : Declared α) (length length' : α),
    event = declared.toEvent length ∧ other = declared.toEvent length'

theorem sameClip_of_describes {homes : Path.Homes} {base : Path} {items : List Json}
    {events others : List (Event α)}
    (declared : List.Forall₂ (Describes homes base) items events)
    (declaredToo : List.Forall₂ (Describes homes base) items others) :
    List.Forall₂ SameClip events others := by
  induction declared generalizing others with
  | nil =>
    cases declaredToo
    exact .nil
  | cons first _ ih =>
    cases declaredToo with
    | cons firstToo rest =>
      obtain ⟨clip, length, read, rfl⟩ := first
      obtain ⟨clip', length', readToo, rfl⟩ := firstToo
      obtain rfl := Except.ok.inj (read.symm.trans readToo)
      exact .cons ⟨clip, length, length', rfl, rfl⟩ (ih rest)

/-- How a configuration that is done after one that failed compares with the same done at once:
which channels the failed one put in, and which this one. -/
structure Again (before failed : Session α) (added redone : List (Channel α))
    (again atOnce : Session α) : Prop where
  base : again.base = atOnce.base
  active : again.active = atOnce.active
  start : again.start = atOnce.start
  timeline : ∃ late once, again.timeline = failed.timeline ++ late ∧
    atOnce.timeline = before.timeline ++ once ∧ List.Forall₂ SameClip late once
  same : ∀ id, (∃ channel ∈ redone, channel.id = id) ∨ (∀ channel ∈ added, channel.id ≠ id) →
    again.channel id = atOnce.channel id ∧ again.initialVolume id = atOnce.initialVolume id
  kept : ∀ id, (∀ channel ∈ redone, channel.id ≠ id) →
    again.channel id = failed.channel id ∧ again.initialVolume id = failed.initialVolume id

theorem again_of_reads (before : Session α) (base place : Path) (added redone : List (Channel α))
    (events : List (Event α)) {late once : List (Event α)}
    (clips : List.Forall₂ SameClip late once) :
    Again before (before.extend base added events) added redone
      ((before.extend base added events).extend place redone late)
      (before.extend place redone once) := by
  obtain ⟨-, active, -, start⟩ := before.extend_rest base added events
  obtain ⟨base', active', timeline', start'⟩ :=
    (before.extend base added events).extend_rest place redone late
  obtain ⟨base'', active'', timeline'', start''⟩ := before.extend_rest place redone once
  refine ⟨base'.trans base''.symm, ?_, ?_, ⟨late, once, timeline', timeline'', clips⟩,
    fun id member => ?_, fun id absent => Session.extend_of_notMem _ _ _ absent⟩
  · rw [active', active, active'']
  · rw [start', start, start'']
  · by_cases inRedone : ∃ channel ∈ redone, channel.id = id
    · exact Session.extend_of_mem before once inRedone
    · have absent : ∀ channel ∈ redone, channel.id ≠ id :=
        fun channel inside same => inRedone ⟨channel, inside, same⟩
      have untouched := member.resolve_left inRedone
      obtain ⟨channel, volume⟩ := before.extend_of_notMem base events untouched
      obtain ⟨channel', volume'⟩ :=
        (before.extend base added events).extend_of_notMem place late absent
      obtain ⟨channel'', volume''⟩ := before.extend_of_notMem place once absent
      exact ⟨by rw [channel', channel, channel''], by rw [volume', volume, volume'']⟩

/-- A configuration that fails leaves its base, the channels before the failure and the clips before
the failure, and nothing else. The same configuration, mended, then comes on top of all this: the
clips stay on the timeline before its own, and so do the channels that it does not name; all else is
as if the failed one had not been tried. -/
theorem configure_keeps_front {config : Json} {base : Path} {studio : Studio α} {cause : Failure}
    (failed : (configure config base).result studio = .error cause) :
    let after := (configure config base).after studio
    ∃ added events,
      Reads studio.settings studio.host config base (.error cause) added events after.host ∧
      after = { studio with
        host := after.host, session := studio.session.extend base added events } ∧
      ∀ mended place, (configure mended place).result after = .ok () →
        (configure mended place).result studio = .ok () →
        ∃ entries redone, Session.channelsOf mended = .ok entries ∧
          Session.ReadsChannels entries (.ok ()) redone ∧
          Again studio.session after.session added redone
            ((configure mended place).after after).session
            ((configure mended place).after studio).session := by
  intro after
  obtain ⟨added, events, host, reads, left⟩ := configure_reads config base studio
  have isAfter : after = { studio with host, session := studio.session.extend base added events } :=
    left
  rw [failed] at reads
  refine ⟨added, events, by rw [isAfter]; exact reads, by rw [isAfter],
    fun mended place isDone isDoneToo => ?_⟩
  obtain ⟨redone, late, _, reads', again⟩ := configure_reads mended place after
  obtain ⟨redone', once, _, reads'', atOnce⟩ := configure_reads mended place studio
  rw [isDone, isAfter] at reads'
  rw [isDoneToo] at reads''
  obtain ⟨entries, items, listed, read, clips, declared⟩ := reads'.inv
  obtain ⟨entries', items', listed', read', clips', declared'⟩ := reads''.inv
  -- Both calls read the same channels and clips; they differ in what they find at hand.
  obtain rfl := Except.ok.inj (listed.symm.trans listed')
  obtain rfl := Except.ok.inj (clips.symm.trans clips')
  obtain rfl : redone = redone' := Except.ok.inj
    ((mapM_eq_ok_iff.mpr read.forall₂).symm.trans (mapM_eq_ok_iff.mpr read'.forall₂))
  rw [reads.homes] at declared
  rw [isAfter] at again ⊢
  rw [again, atOnce]
  exact ⟨entries, redone, listed, read,
    again_of_reads _ _ _ _ _ _ (sameClip_of_describes declared declared')⟩

def sceneWith (more : List Json) : Json :=
  .object [("channels", .object [("2", .object [("volume", .float 0.5)])]),
    ("tracks", .array (.object [("file", .string "/m/music.mp3"), ("channel", .int 2)] :: more))]

def fresh : Studio Rat where
  settings := {}
  host := { facts := .catalogue [("music.mp3", ⟨5000, none, none⟩)] }
  session := .new
  clock := 100

/-- An item without a file fails; it is taken out, and the rest is done again elsewhere. -/
theorem configure_keeps_front_mended :
    let base : Path := ⟨.root, ["proj"]⟩
    let place : Path := ⟨.root, ["elsewhere"]⟩
    let after := (configure (sceneWith [.object []]) base).after fresh
    (configure (sceneWith [.object []]) base).result fresh = .error (.missingKey "file") ∧
      ∃ added events redone, Reads {} fresh.host (sceneWith [.object []]) base
          (.error (.missingKey "file")) added events after.host ∧
        after.session = Session.new.extend base added events ∧
        Again .new after.session added redone
          ((configure (sceneWith []) place).after after).session
          ((configure (sceneWith []) place).after fresh).session := by
  intro base place after
  have failed : (configure (sceneWith [.object []]) base).result fresh =
      .error (.missingKey "file") := by
    decide +kernel
  obtain ⟨added, events, reads, left, mended⟩ := configure_keeps_front failed
  obtain ⟨_, redone, _, _, again⟩ := mended (sceneWith []) place (by decide +kernel)
    (by decide +kernel)
  exact ⟨failed, added, events, redone, reads, congrArg Studio.session left, again⟩

/-- A failed configuration leaves its base, its channel and its first clip, and the clip is there
twice when it has been mended. -/
theorem failed_configuration_stays :
    let base : Path := ⟨.root, ["proj"]⟩
    let after := (configure (sceneWith [.object []]) base).after fresh
    (configure (sceneWith [.object []]) base).result fresh = .error (.missingKey "file") ∧
      after.session.base ≠ fresh.session.base ∧
      (after.session.channel 2).volume ≠ (fresh.session.channel 2).volume ∧
      after.session.timeline.length = 1 ∧ fresh.session.timeline.length = 0 ∧
      ((configure (sceneWith []) base).after after).session.timeline.length = 2 ∧
      ((configure (sceneWith []) base).after fresh).session.timeline.length = 1 := by
  decide +kernel

end Studio

end Screencast
