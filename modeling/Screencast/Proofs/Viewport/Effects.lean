import Screencast.Proofs.Viewport.Pan

/-!
What a command may touch, whatever it is applied to and in whatever order: a follow and a hold leave
the settled state alone, a zoom settles a zoom, and a pan, under its own turn, notes its origin and
lands once. What was noted and committed stays so.
-/

namespace Screencast

theorem Table.mem_keys_iff {κ ν : Type} [DecidableEq κ] {key : κ} {table : Table κ ν} :
    key ∈ keys table ↔ ∃ value, find? key table = some value := by
  induction table with
  | nil => simp [keys, find?]
  | cons entry rest ih =>
    obtain ⟨k, v⟩ := entry
    unfold keys at ih ⊢
    rw [List.map_cons, List.mem_cons, ih, find?]
    by_cases same : k = key
    · simp [same]
    · simp [same, Ne.symm same]

variable {α : Type}

namespace Settled

def CommitsNoted (settled : Settled α) : Prop :=
  ∀ turn ∈ settled.committed, turn ∈ settled.origins.keys

instance (settled : Settled α) : Decidable settled.CommitsNoted :=
  inferInstanceAs (Decidable (∀ turn ∈ settled.committed, turn ∈ settled.origins.keys))

structure Keeps (before after : Settled α) : Prop where
  origins : ∀ turn place, before.origins.find? turn = some place →
    after.origins.find? turn = some place
  committed : before.committed ⊆ after.committed

theorem Keeps.refl (settled : Settled α) : settled.Keeps settled :=
  ⟨fun _ _ noted => noted, List.Subset.refl _⟩

theorem Keeps.trans {first second third : Settled α} (earlier : first.Keeps second)
    (later : second.Keeps third) : first.Keeps third :=
  ⟨fun turn place noted => later.origins turn place (earlier.origins turn place noted),
    List.Subset.trans earlier.committed later.committed⟩

end Settled

/-- A command at its turn, with the frame and the track that it is applied to. -/
structure Application (α : Type) where
  turn : Nat
  command : Command α
  track : Track α
  frame : Frame α

variable [Number α]

namespace Application

def reach (application : Application α) (settled : Settled α) : Frame α × Settled α :=
  application.command.apply application.turn application.track (application.frame, settled)

def settledAfter (settled : Settled α) (applications : List (Application α)) : Settled α :=
  applications.foldl (fun settled application => (application.reach settled).2) settled

/-- What an application may touch of a frame and of what is settled. -/
structure TouchesOwn (application : Application α) (before : Settled α) (frame : Frame α)
    (after : Settled α) : Prop where
  time : frame.time = application.frame.time
  part : match application.command with
    | .follow .. | .hold .. => after = before
    | .zoom .. => after = { before with zoom := after.zoom }
    | .pan .. => frame.zoom = application.frame.zoom ∧ after.zoom = before.zoom
  /-- The settled centre moves only when a pan is committed. -/
  lands : after.center ≠ before.center →
    (∃ goal start duration, application.command = .pan goal start duration) ∧
      application.turn ∉ before.committed ∧ application.turn ∈ after.committed
  /-- What belongs to other turns is as it was. -/
  others : ∀ turn ≠ application.turn,
    after.origins.find? turn = before.origins.find? turn ∧
      (turn ∈ after.committed ↔ turn ∈ before.committed)
  keeps : before.Keeps after

variable (application : Application α) (settled : Settled α)

theorem find?_origins_reach {turn : Nat} (other : turn ≠ application.turn) :
    (application.reach settled).2.origins.find? turn = settled.origins.find? turn := by
  rw [reach, Command.apply_origins, if_neg fun both => other both.1.symm]

theorem mem_committed_reach (turn : Nat) :
    turn ∈ (application.reach settled).2.committed ↔ turn ∈ settled.committed ∨
      application.command.panPast application.frame.time = true ∧ turn = application.turn := by
  rw [reach, Command.apply_committed]
  dsimp only
  split
  · next lands =>
    rw [List.mem_append, List.mem_singleton]
    simp only [lands.1, true_and]
  · next stays =>
    refine ⟨.inl, fun either => either.elim id fun ⟨isPast, same⟩ => ?_⟩
    by_contra absent
    exact stays ⟨isPast, same ▸ absent⟩

theorem keeps_reach : settled.Keeps (application.reach settled).2 := by
  constructor
  · intro turn place noted
    rw [reach, Command.apply_origins]
    split
    · next own => rw [own.1, Settled.origin, noted, Option.getD_some]
    · exact noted
  · intro turn member
    exact (mem_committed_reach application settled turn).mpr (.inl member)

theorem lands_of_center_ne (moved : (application.reach settled).2.center ≠ settled.center) :
    (∃ goal start duration, application.command = .pan goal start duration) ∧
      application.turn ∉ settled.committed ∧
      application.turn ∈ (application.reach settled).2.committed := by
  have center : (application.reach settled).2.center =
      (application.command.landing? application.track application.turn
        (application.frame, settled)).getD settled.center := Command.apply_settled_center ..
  rw [mem_committed_reach]
  rw [center] at moved
  cases isCommand : application.command with
  | pan goal start duration =>
    rw [isCommand, Command.landing?] at moved
    split at moved
    · next lands => exact ⟨⟨goal, start, duration, rfl⟩, lands.2, .inr ⟨lands.1, rfl⟩⟩
    · exact absurd rfl moved
  | follow | zoom | hold =>
    rw [isCommand] at moved
    exact absurd rfl moved

theorem touchesOwn_reach :
    application.TouchesOwn settled (application.reach settled).1 (application.reach settled).2 where
  time := Command.apply_time ..
  part := by
    obtain ⟨turn, command, track, frame⟩ := application
    cases command with
    | follow => rfl
    | hold => rfl
    | zoom level start duration center =>
      change (settled.zoomStep frame level start duration center track).2 =
        { settled with zoom := (settled.zoomStep frame level start duration center track).2.zoom }
      unfold Settled.zoomStep
      split <;> rfl
    | pan goal start duration => exact Command.panStep_zoom ..
  lands := application.lands_of_center_ne settled
  others turn other := by
    refine ⟨application.find?_origins_reach settled other, ?_⟩
    rw [mem_committed_reach]
    simp only [other, and_false, or_false]
  keeps := application.keeps_reach settled

theorem commitsNoted_reach (noted : settled.CommitsNoted) :
    (application.reach settled).2.CommitsNoted := by
  intro turn member
  rw [Table.mem_keys_iff]
  rcases (mem_committed_reach application settled turn).mp member with before | ⟨isPast, rfl⟩
  · obtain ⟨place, found⟩ := Table.mem_keys_iff.mp (noted turn before)
    exact ⟨place, (application.keeps_reach settled).origins turn place found⟩
  · refine ⟨_, (Command.apply_origins ..).trans (if_pos ⟨rfl, ?_⟩)⟩
    exact Command.panBegun_of_panPast isPast

variable (applications : List (Application α))

theorem settledAfter_append (later : List (Application α)) :
    settledAfter settled (applications ++ later) =
      settledAfter (settledAfter settled applications) later :=
  List.foldl_append

theorem keeps_settledAfter : settled.Keeps (settledAfter settled applications) := by
  induction applications generalizing settled with
  | nil => exact .refl settled
  | cons application rest ih => exact (application.keeps_reach settled).trans (ih _)

theorem commitsNoted_settledAfter {settled : Settled α} (noted : settled.CommitsNoted) :
    (settledAfter settled applications).CommitsNoted := by
  induction applications generalizing settled with
  | nil => exact noted
  | cons application rest ih => exact ih (application.commitsNoted_reach settled noted)

/-- In every run of applications, whatever commands are applied to whatever frames, each touches
only its own part; nothing noted or committed is lost from one moment to any later one, and the
committed pans have always noted where they set out from. -/
theorem run_touchesOwn {settled : Settled α} (noted : settled.CommitsNoted)
    (applications : List (Application α)) :
    (∀ earlier application later, applications = earlier ++ application :: later →
      let before := settledAfter settled earlier
      let (frame, after) := application.reach before
      settledAfter settled (earlier ++ [application]) = after ∧
        application.TouchesOwn before frame after) ∧
    (∀ earlier between later, applications = earlier ++ between ++ later →
      (settledAfter settled earlier).Keeps (settledAfter settled (earlier ++ between)) ∧
        (settledAfter settled earlier).CommitsNoted) ∧
    (settledAfter settled applications).CommitsNoted := by
  refine ⟨?_, ?_, commitsNoted_settledAfter applications noted⟩
  · rintro earlier application later -
    refine ⟨?_, touchesOwn_reach application _⟩
    rw [settledAfter_append]
    rfl
  · rintro earlier between later -
    rw [settledAfter_append]
    exact ⟨keeps_settledAfter _ between, commitsNoted_settledAfter earlier noted⟩

/-- A pan that lands, then a zoom in a frame before it, with a pan that landed earlier. -/
theorem run_touchesOwn_going_back :
    let settled : Settled Rat :=
      { zoom := 1, center := ⟨10, 20⟩, origins := [(0, ⟨1, 2⟩)], committed := [0] }
    let pan : Application Rat := ⟨1, .pan (.point ⟨5, 6⟩) 0 1, [], ⟨3, .level 2, ⟨7, 8⟩⟩⟩
    let zoom : Application Rat := ⟨2, .zoom 4 0 1 .mouse, [], ⟨2, .level 1, ⟨0, 0⟩⟩⟩
    settled.CommitsNoted ∧
      settled.Keeps (settledAfter settled [pan, zoom]) ∧
      (settledAfter settled [pan, zoom]).CommitsNoted ∧
      (settledAfter settled [pan]).center ≠ settled.center ∧
      1 ∉ settled.committed ∧ 1 ∈ (settledAfter settled [pan]).committed ∧
      zoom.TouchesOwn (settledAfter settled [pan]) (zoom.reach (settledAfter settled [pan])).1
        (settledAfter settled [pan, zoom]) := by
  intro settled pan zoom
  have noted : settled.CommitsNoted := by decide
  obtain ⟨steps, spans, after⟩ := run_touchesOwn noted [pan, zoom]
  obtain ⟨-, pans⟩ := steps [] pan [zoom] rfl
  obtain ⟨-, zooms⟩ := steps [pan] zoom [] rfl
  have moved : (settledAfter settled [pan]).center ≠ settled.center := by decide +kernel
  obtain ⟨-, fresh, lands⟩ := pans.lands moved
  exact ⟨noted, (spans [] [pan, zoom] [] rfl).1, after, moved, fresh, lands, zooms⟩

end Application

end Screencast
