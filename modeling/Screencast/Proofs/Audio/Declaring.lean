import Screencast.Proofs.Audio.Likeness
import Screencast.Proofs.Media.Remembering
import Screencast.Proofs.Steps

/-!
Configurations that fail. The channels and the clips of a configuration are taken one after another,
and what came before the first that cannot be read stays: there is no way back. A configuration that
is mended and tried once more comes on top of what the failed one has left.
-/

namespace Screencast

variable {α : Type} [Number α]

namespace Media

theorem homes_probe (settings : Settings) (path : Path) (host : Host α) :
    ((probe settings path).after host).homes = host.homes := by
  cases known : host.known.find? path.toString with
  | some info => rw [Job.after, run_probe_of_some known]
  | none =>
    rw [Job.after, run_probe_of_unknown known]
    change ((renew settings path).after host).homes = host.homes
    unfold renew
    rw [Job.after_bind]
    cases (look settings path).result host <;> exact homes_look

theorem homes_duration (settings : Settings) (path : Path) (host : Host α) :
    ((duration settings path).after host).homes = host.homes := by
  unfold duration
  rw [Job.after_bind]
  cases (probe settings path).result host <;> exact homes_probe settings path host

end Media

namespace Session

def channelOf (entry : String × Json) : Except Failure (Channel α) :=
  NumberText.toInteger entry.1 >>= fun id => Channel.ofJson id entry.2

def addAll (session : Session α) (added : List (Channel α)) : Session α :=
  added.foldl addChannel session

omit [Number α] in
theorem record_record (session : Session α) (early late : List (Event α)) :
    (session.record early).record late = session.record (early ++ late) := by
  unfold record
  rw [List.append_assoc]

/-- How far the channels of a configuration are read. -/
def ReadsChannels : List (String × Json) → Except Failure Unit → List (Channel α) → Prop :=
  Walked (fun entry channel => channelOf entry = .ok channel)
    (fun entry cause => (channelOf entry : Except Failure (Channel α)) = .error cause)

theorem addChannels_reads (session : Session α) (entries : List (String × Json)) :
    ∃ added, ReadsChannels entries (session.addChannels entries).1 added ∧
      (session.addChannels entries).2 = session.addAll added := by
  induction entries generalizing session with
  | nil => exact ⟨[], .nil, rfl⟩
  | cons entry rest ih =>
    cases read : (channelOf entry : Except Failure (Channel α)) with
    | error cause =>
      have run : session.addChannels (entry :: rest) = (.error cause, session) := by
        unfold channelOf at read
        rw [addChannels, read]
      rw [run]
      exact ⟨[], .stop read, rfl⟩
    | ok channel =>
      have run : session.addChannels (entry :: rest) =
          (session.addChannel channel).addChannels rest := by
        unfold channelOf at read
        rw [addChannels, read]
      obtain ⟨added, reads, put⟩ := ih (session.addChannel channel)
      rw [run]
      exact ⟨channel :: added, reads.cons read, put⟩

omit [Number α] in
theorem addAll_rest (session : Session α) (added : List (Channel α)) :
    (session.addAll added).base = session.base ∧ (session.addAll added).active = session.active ∧
      (session.addAll added).timeline = session.timeline ∧
      (session.addAll added).start = session.start := by
  induction added generalizing session with
  | nil => exact ⟨rfl, rfl, rfl, rfl⟩
  | cons channel rest ih => exact ih (session.addChannel channel)

theorem channel_addAll (session : Session α) (added : List (Channel α)) (id : Int) :
    (session.addAll added).channel id =
      (added.reverse.find? (·.id = id)).getD (session.channel id) := by
  induction added generalizing session with
  | nil => rfl
  | cons channel rest ih =>
    change ((session.addChannel channel).addAll rest).channel id = _
    rw [ih, channel_addChannel, List.reverse_cons, List.find?_append]
    by_cases same : channel.id = id
    · cases rest.reverse.find? (·.id = id) <;> simp [same]
    · cases rest.reverse.find? (·.id = id) <;> simp [same]

theorem initialVolume_addAll (session : Session α) (added : List (Channel α)) (id : Int) :
    (session.addAll added).initialVolume id =
      ((added.reverse.find? (·.id = id)).map (·.volume)).getD (session.initialVolume id) := by
  induction added generalizing session with
  | nil => rfl
  | cons channel rest ih =>
    change ((session.addChannel channel).addAll rest).initialVolume id = _
    rw [ih, initialVolume_addChannel, List.reverse_cons, List.find?_append]
    by_cases same : channel.id = id
    · cases rest.reverse.find? (·.id = id) <;> simp [same]
    · cases rest.reverse.find? (·.id = id) <;> simp [same]

def extend (session : Session α) (base : Path) (added : List (Channel α))
    (events : List (Event α)) : Session α :=
  (({ session with base } : Session α).addAll added).record events

omit [Number α] in
theorem extend_rest (session : Session α) (base : Path) (added : List (Channel α))
    (events : List (Event α)) :
    (session.extend base added events).base = base ∧
      (session.extend base added events).active = session.active ∧
      (session.extend base added events).timeline = session.timeline ++ events ∧
      (session.extend base added events).start = session.start := by
  obtain ⟨isBase, active, timeline, start⟩ := addAll_rest { session with base } added
  exact ⟨isBase, active, congrArg (· ++ events) timeline, start⟩

variable {session : Session α} {added : List (Channel α)} {id : Int} {base : Path}
  {events : List (Event α)}

theorem extend_of_mem (other : Session α) (others : List (Event α))
    (member : ∃ channel ∈ added, channel.id = id) :
    (session.extend base added events).channel id = (other.extend base added others).channel id ∧
      (session.extend base added events).initialVolume id =
        (other.extend base added others).initialVolume id := by
  obtain ⟨channel, inAdded, same⟩ := member
  obtain ⟨last, found⟩ : ∃ last, added.reverse.find? (·.id = id) = some last :=
    Option.isSome_iff_exists.mp (List.find?_isSome.mpr
      ⟨channel, List.mem_reverse.mpr inAdded, decide_eq_true same⟩)
  change (addAll _ added).channel id = (addAll _ added).channel id ∧
    (addAll _ added).initialVolume id = (addAll _ added).initialVolume id
  simp only [channel_addAll, initialVolume_addAll, found]
  exact ⟨rfl, rfl⟩

theorem extend_of_notMem (session : Session α) (base : Path) (events : List (Event α))
    (absent : ∀ channel ∈ added, channel.id ≠ id) :
    (session.extend base added events).channel id = session.channel id ∧
      (session.extend base added events).initialVolume id = session.initialVolume id := by
  have none : added.reverse.find? (·.id = id) = none :=
    List.find?_eq_none.mpr fun channel member => by
      simpa using absent channel (List.mem_reverse.mp member)
  change (addAll _ added).channel id = _ ∧ (addAll _ added).initialVolume id = _
  rw [channel_addAll, initialVolume_addAll, none]
  exact ⟨rfl, rfl⟩

end Session

namespace Studio

/-- Whether an event is the clip that an item describes, of whatever length. -/
def Describes (homes : Path.Homes) (base : Path) (item : Json) (event : Event α) : Prop :=
  ∃ (declared : Declared α) (length : α),
    Declared.ofJson homes base item = .ok declared ∧ event = declared.toEvent length

/-- How far the clips of a configuration are declared from one host to another: each is as long as
the probe says by then, up to the first that cannot be read or probed. -/
inductive ReadsClips (settings : Settings) (base : Path) :
    Host α → List Json → Except Failure Unit → List (Event α) → Host α → Prop
  | nil {host : Host α} : ReadsClips settings base host [] (.ok ()) [] host
  | unread {host : Host α} {item : Json} {rest : List Json} {cause : Failure}
    (refused : (Declared.ofJson host.homes base item : Except Failure (Declared α)) =
      .error cause) :
    ReadsClips settings base host (item :: rest) (.error cause) [] host
  | unprobed {host : Host α} {item : Json} {rest : List Json} {declared : Declared α}
    {cause : Failure} (read : Declared.ofJson host.homes base item = .ok declared)
    (refused : (Media.duration settings declared.file).result host = .error cause) :
    ReadsClips settings base host (item :: rest) (.error cause) []
      ((Media.duration settings declared.file).after host)
  | cons {host after : Host α} {item : Json} {rest : List Json} {declared : Declared α}
    {length : α} {result : Except Failure Unit} {events : List (Event α)}
    (read : Declared.ofJson host.homes base item = .ok declared)
    (told : (Media.duration settings declared.file).result host = .ok length)
    (later : ReadsClips settings base ((Media.duration settings declared.file).after host) rest
      result events after) :
    ReadsClips settings base host (item :: rest) result (declared.toEvent length :: events) after

namespace ReadsClips

variable {settings : Settings} {base : Path} {host after : Host α} {items : List Json}
  {result : Except Failure Unit} {events : List (Event α)}

theorem homes (reads : ReadsClips settings base host items result events after) :
    after.homes = host.homes := by
  induction reads with
  | nil | unread => rfl
  | unprobed => exact Media.homes_duration _ _ _
  | cons _ _ _ ih => exact ih.trans (Media.homes_duration _ _ _)

theorem describes (reads : ReadsClips settings base host items (.ok ()) events after) :
    List.Forall₂ (Describes host.homes base) items events := by
  generalize done : (.ok () : Except Failure Unit) = result at reads
  induction reads with
  | nil => exact .nil
  | unread | unprobed => nomatch done
  | cons read _ _ ih =>
    have rest := ih done
    rw [Media.homes_duration] at rest
    exact .cons ⟨_, _, read, rfl⟩ rest

end ReadsClips

def declareOne (item : Json) : Work α Unit := do
  let studio ← get
  let declared ← Work.ofExcept (Declared.ofJson studio.host.homes studio.session.base item)
  let length ← onHost (Media.duration studio.settings declared.file)
  change (·.record [declared.toEvent length])

theorem declareOne_of_unread {item : Json} {studio : Studio α} {cause : Failure}
    (refused : (Declared.ofJson studio.host.homes studio.session.base item :
      Except Failure (Declared α)) = .error cause) :
    (declareOne item).result studio = .error cause ∧ (declareOne item).after studio = studio := by
  unfold declareOne
  rw [Work.result_get_bind, Work.after_get_bind, Work.result_bind, Work.after_bind,
    Work.result_ofExcept, Work.after_ofExcept, refused]
  exact ⟨rfl, rfl⟩

theorem declareOne_of_read {item : Json} {studio : Studio α} {declared : Declared α}
    (read : Declared.ofJson studio.host.homes studio.session.base item = .ok declared) :
    let probe := Media.duration studio.settings declared.file
    let host := probe.after studio.host
    (∀ cause, probe.result studio.host = .error cause →
      (declareOne item).result studio = .error cause ∧
        (declareOne item).after studio = { studio with host }) ∧
    ∀ length, probe.result studio.host = .ok length →
      (declareOne item).result studio = .ok () ∧ (declareOne item).after studio =
        { studio with host, session := studio.session.record [declared.toEvent length] } := by
  intro probe host
  have result : (onHost probe : Work α α).result studio = probe.result studio.host := rfl
  unfold declareOne
  rw [Work.result_get_bind, Work.after_get_bind, Work.result_bind, Work.after_bind,
    Work.result_ofExcept, Work.after_ofExcept, read]
  dsimp only
  rw [Work.result_bind, Work.after_bind, result]
  constructor
  · intro cause refused
    rw [refused]
    exact ⟨rfl, rfl⟩
  · intro length told
    rw [told]
    exact ⟨rfl, rfl⟩

/-- The items are declared up to the first that is refused, and no more is done in the studio. -/
theorem declare_reads (items : List Json) (studio : Studio α) :
    ∃ events host, ReadsClips studio.settings studio.session.base studio.host items
        ((declare items).result studio) events host ∧
      (declare items).after studio =
        { studio with host, session := studio.session.record events } := by
  induction items generalizing studio with
  | nil => exact ⟨[], studio.host, .nil, by rw [Session.record_nil]; rfl⟩
  | cons item rest ih =>
    change ∃ events host,
      ReadsClips _ _ _ _ ((declareOne item >>= fun _ => declare rest).result studio) _ _ ∧
      (declareOne item >>= fun _ => declare rest).after studio = _
    rw [Work.result_bind, Work.after_bind]
    cases read : (Declared.ofJson studio.host.homes studio.session.base item :
        Except Failure (Declared α)) with
    | error cause =>
      obtain ⟨result, after⟩ := declareOne_of_unread read
      rw [result, after]
      exact ⟨[], studio.host, .unread read, by rw [Session.record_nil]⟩
    | ok declared =>
      obtain ⟨unprobed, probed⟩ := declareOne_of_read read
      cases told : (Media.duration studio.settings declared.file).result studio.host with
      | error cause =>
        obtain ⟨result, after⟩ := unprobed cause told
        rw [result, after]
        exact ⟨[], _, .unprobed read told, by rw [Session.record_nil]⟩
      | ok length =>
        obtain ⟨result, after⟩ := probed length told
        rw [result, after]
        obtain ⟨events, host, reads, run⟩ := ih { studio with
          host := (Media.duration studio.settings declared.file).after studio.host,
          session := studio.session.record [declared.toEvent length] }
        refine ⟨_, host, .cons read told reads, ?_⟩
        dsimp only
        rw [run, Session.record_record]
        rfl

/-- How far a configuration is read from one host to another: with what result, and which channels
and events come of it. -/
inductive Reads (settings : Settings) (host : Host α) (config : Json) (base : Path) :
    Except Failure Unit → List (Channel α) → List (Event α) → Host α → Prop
  | noChannels {cause : Failure} (unread : Session.channelsOf config = .error cause) :
    Reads settings host config base (.error cause) [] [] host
  | someChannels {entries : List (String × Json)} {added : List (Channel α)} {cause : Failure}
    (listed : Session.channelsOf config = .ok entries)
    (read : Session.ReadsChannels entries (.error cause) added) :
    Reads settings host config base (.error cause) added [] host
  | noClips {entries : List (String × Json)} {added : List (Channel α)} {cause : Failure}
    (listed : Session.channelsOf config = .ok entries)
    (read : Session.ReadsChannels entries (.ok ()) added) (unread : clipsOf config = .error cause) :
    Reads settings host config base (.error cause) added [] host
  | clips {entries : List (String × Json)} {added : List (Channel α)} {items : List Json}
    {result : Except Failure Unit} {events : List (Event α)} {after : Host α}
    (listed : Session.channelsOf config = .ok entries)
    (read : Session.ReadsChannels entries (.ok ()) added) (clips : clipsOf config = .ok items)
    (declared : ReadsClips settings base host items result events after) :
    Reads settings host config base result added events after

namespace Reads

variable {settings : Settings} {host after : Host α} {config : Json} {base : Path}
  {added : List (Channel α)} {events : List (Event α)}

theorem homes {result : Except Failure Unit}
    (reads : Reads settings host config base result added events after) :
    after.homes = host.homes := by
  cases reads with
  | clips _ _ _ declared => exact declared.homes
  | noChannels | someChannels | noClips => rfl

theorem inv (reads : Reads settings host config base (.ok ()) added events after) :
    ∃ entries items, Session.channelsOf config = .ok entries ∧
      Session.ReadsChannels entries (.ok ()) added ∧ clipsOf config = .ok items ∧
      List.Forall₂ (Describes host.homes base) items events := by
  cases reads with
  | clips listed read clips declared => exact ⟨_, _, listed, read, clips, declared.describes⟩

end Reads

/-- A configuration leaves the base that it was given and what was read of it, and no more is done
in the studio. -/
theorem configure_reads (config : Json) (base : Path) (studio : Studio α) :
    ∃ added events host, Reads studio.settings studio.host config base
        ((configure config base).result studio) added events host ∧
      (configure config base).after studio =
        { studio with host, session := studio.session.extend base added events } := by
  unfold Session.extend
  rw [configure_eq, Work.result_get_bind, Work.after_get_bind, Work.result_bind, Work.after_bind,
    Work.result_change, Work.after_change]
  dsimp only
  rw [Work.result_bind, Work.after_bind, Work.result_ofExcept, Work.after_ofExcept]
  unfold Session.configured
  cases listed : Session.channelsOf config with
  | error cause =>
    exact ⟨[], [], studio.host, .noChannels listed, by rw [Session.record_nil]; rfl⟩
  | ok entries =>
    obtain ⟨added, reads, put⟩ :=
      ({ studio.session with base } : Session α).addChannels_reads entries
    dsimp only
    rw [put]
    cases result : (({ studio.session with base } : Session α).addChannels entries).1 with
    | error cause =>
      rw [result] at reads
      exact ⟨added, [], studio.host, .someChannels listed reads, by rw [Session.record_nil]⟩
    | ok _ =>
      rw [result] at reads
      dsimp only
      rw [Work.result_bind, Work.after_bind, Work.result_ofExcept, Work.after_ofExcept]
      cases clips : clipsOf config with
      | error cause =>
        exact ⟨added, [], studio.host, .noClips listed reads clips, by rw [Session.record_nil]⟩
      | ok items =>
        obtain ⟨events, host, declared, after⟩ := declare_reads items
          { studio with session := ({ studio.session with base } : Session α).addAll added }
        rw [(Session.addAll_rest _ added).1] at declared
        exact ⟨added, events, host, .clips listed reads clips declared, after⟩

end Studio

end Screencast
