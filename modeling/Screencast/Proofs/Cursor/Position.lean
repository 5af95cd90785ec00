import Mathlib.Topology.Instances.Rat
import Screencast.Proofs.Curve.Interpolation
import Screencast.Proofs.Viewport.Checked
import Screencast.Proofs.Viewport.Hull

/-!
Where the cursor was, in exact arithmetic. Along samples in order it moves on the straight line from
each to the next and rests before the first and behind the last; in any order it stays in the
rectangle around them, and nothing is ever divided by nought.
-/

namespace Screencast

open Curve

def Sample.toward (before after : Sample Rat) (time : Rat) : Point Rat :=
  ⟨before.x + (after.x - before.x) * (time - before.time) / (after.time - before.time),
    before.y + (after.y - before.y) * (time - before.time) / (after.time - before.time)⟩

theorem Sample.toward_left (before after : Sample Rat) :
    before.toward after before.time = before.point := by
  simp [toward, point]

theorem Sample.toward_right {before after : Sample Rat} (later : before.time < after.time) :
    before.toward after after.time = after.point := by
  have gap : after.time - before.time ≠ 0 := by linarith
  simp [toward, point, gap]

namespace Track

def Ordered (track : Track Rat) : Prop :=
  track.Pairwise fun before after => before.time < after.time

/-- Whether a place moves on the straight lines from sample to sample, without a leap, and rests
before the first and behind the last. -/
structure Traces (track : Track Rat) (place : Rat → Point Rat) : Prop where
  before : ∀ first ∈ track.head?, ∀ time ≤ first.time, place time = first.point
  after : ∀ last ∈ track.getLast?, ∀ time, last.time ≤ time → place time = last.point
  between : ∀ pair ∈ track.zip track.tail, ∀ time, pair.1.time ≤ time → time ≤ pair.2.time →
    place time = pair.1.toward pair.2 time
  through : ∀ sample ∈ track, place sample.time = sample.point
  /-- There are speeds that the coordinates never exceed. -/
  steady : (∃ speed, Steady speed fun time => (place time).x) ∧
    ∃ speed, Steady speed fun time => (place time).y
  continuous : Continuous (fun time => (place time).x) ∧ Continuous fun time => (place time).y

/-- Whether a place lies in the rectangle around the samples; of no samples that is the corner. -/
def Bounds (track : Track Rat) (place : Point Rat) : Prop :=
  if track = [] then place = ⟨0, 0⟩ else Encloses (track.map Sample.point) place

section Safety

variable {before after : Sample Rat} {time : Rat}

theorem between?_of_le (lower : before.time ≤ time) (upper : time ≤ after.time) :
    between? time before after = some (between time before after) := by
  unfold between? between
  split
  · rfl
  · next notBefore =>
    split
    · rfl
    · next notAfter =>
      have later : before.time < time := lt_of_le_of_ne lower fun same => notBefore (by simp [same])
      have gap : after.time - before.time ≠ 0 := by linarith
      have safe : (after.time - before.time == 0) = false := beq_eq_false_iff_ne.mpr gap
      rw [Number.quotient?, if_neg (by rw [safe]; decide)]
      rfl

end Safety

section Ordered

variable {track rest : Track Rat} {first before after : Sample Rat} {time : Rat}

theorem Ordered.tail (ordered : Ordered (first :: rest)) : Ordered rest :=
  (List.pairwise_cons.mp ordered).2

theorem Ordered.first_le (ordered : Ordered (first :: rest)) :
    ∀ sample ∈ first :: rest, first.time ≤ sample.time := by
  intro sample member
  rcases List.mem_cons.mp member with rfl | later
  · exact le_rfl
  · exact ((List.pairwise_cons.mp ordered).1 sample later).le

theorem Ordered.le_last (ordered : Ordered track) {last : Sample Rat}
    (isLast : last ∈ track.getLast?) : ∀ sample ∈ track, sample.time ≤ last.time := by
  intro sample member
  obtain ⟨front, rfl⟩ := List.getLast?_eq_some_iff.mp isLast
  rcases List.mem_append.mp member with earlier | same
  · exact ((List.pairwise_append.mp ordered).2.2 sample earlier last (by simp)).le
  · rw [List.mem_singleton.mp same]

theorem Ordered.eq_of_time (ordered : Ordered track) (left : before ∈ track) (right : after ∈ track)
    (same : before.time = after.time) : before = after := by
  have distinct : (track.map Sample.time).Nodup :=
    (List.pairwise_map.mpr ordered).imp fun less => ne_of_lt less
  exact List.inj_on_of_nodup_map distinct left right same

theorem last_or_followed {sample : Sample Rat} (member : sample ∈ track) :
    sample ∈ track.getLast? ∨ ∃ next, (sample, next) ∈ track.zip track.tail := by
  induction track with
  | nil => cases member
  | cons first rest ih =>
    cases rest with
    | nil =>
      rw [List.mem_singleton.mp member]
      exact Or.inl rfl
    | cons second others =>
      rcases List.mem_cons.mp member with rfl | later
      · exact Or.inr ⟨second, by simp⟩
      · rw [List.getLast?_cons_cons]
        apply (ih later).imp_right
        rintro ⟨next, follows⟩
        exact ⟨next, List.mem_cons_of_mem _ follows⟩

/-- A moment from the first sample to the last lies between two neighbours. -/
theorem exists_neighbours {last : Sample Rat} (isLast : last ∈ (first :: rest).getLast?)
    (several : rest ≠ []) (lower : first.time ≤ time) (upper : time ≤ last.time) :
    ∃ pair ∈ (first :: rest).zip rest, pair.1.time ≤ time ∧ time ≤ pair.2.time := by
  induction rest generalizing first with
  | nil => exact absurd rfl several
  | cons second others ih =>
    rw [List.getLast?_cons_cons] at isLast
    rcases le_total time second.time with inside | beyond
    · exact ⟨(first, second), by simp, lower, inside⟩
    · by_cases more : others = []
      · subst more
        have same : second = last := by simpa using isLast
        exact ⟨(first, second), by simp, lower, same ▸ upper⟩
      · obtain ⟨pair, member, enclosed⟩ := ih isLast more beyond
        exact ⟨pair, List.mem_cons_of_mem _ member, enclosed⟩

theorem Ordered.lt_of_neighbours (ordered : Ordered track)
    (neighbours : (before, after) ∈ track.zip track.tail) : before.time < after.time := by
  induction track with
  | nil => cases neighbours
  | cons first rest ih =>
    cases rest with
    | nil => cases neighbours
    | cons second others =>
      rcases List.mem_cons.mp neighbours with here | later
      · obtain ⟨rfl, rfl⟩ := Prod.mk.inj here
        exact (List.pairwise_cons.mp ordered).1 after (by simp)
      · exact ih ordered.tail later

theorem between_eq_toward (later : before.time < after.time) (time : Rat) :
    between time before after = before.toward after time := by
  unfold between
  split
  · next atFirst =>
    rw [beq_iff_eq.mp atFirst, Sample.toward_left]
  · split
    · next atLast =>
      rw [beq_iff_eq.mp atLast, Sample.toward_right later]
    · simp only [Sample.toward, mul_div_assoc]

/-- The first pair of neighbours that encloses a moment is the right one: at a sample both pairs
that meet there say the same. -/
theorem Ordered.inside?_eq (ordered : Ordered track)
    (neighbours : (before, after) ∈ track.zip track.tail) (lower : before.time ≤ time)
    (upper : time ≤ after.time) : inside? time track = some (before.toward after time) := by
  induction track with
  | nil => cases neighbours
  | cons first rest ih =>
    cases rest with
    | nil => cases neighbours
    | cons second others =>
      have advance : first.time < second.time := (List.pairwise_cons.mp ordered).1 second (by simp)
      rw [inside?]
      rcases List.mem_cons.mp neighbours with here | later
      · obtain ⟨rfl, rfl⟩ := Prod.mk.inj here
        rw [if_pos ⟨lower, upper⟩, between_eq_toward advance]
      · by_cases enclosed : first.time ≤ time ∧ time ≤ second.time
        · have member := (List.of_mem_zip later).1
          have atSecond : time = second.time :=
            le_antisymm enclosed.2 ((ordered.tail.first_le before member).trans lower)
          have meets : before = second :=
            ordered.tail.eq_of_time member (by simp)
              (le_antisymm (lower.trans_eq atSecond) (ordered.tail.first_le before member))
          rw [if_pos enclosed, between_eq_toward advance, atSecond, Sample.toward_right advance,
            meets, Sample.toward_left]
        · rw [if_neg enclosed]
          exact ih ordered.tail later

theorem positionAt_before (isFirst : first ∈ track.head?) (early : time ≤ first.time) :
    track.positionAt time = first.point := by
  cases track with
  | nil => cases isFirst
  | cons head rest =>
    cases isFirst
    rw [positionAt, if_pos early]

theorem Ordered.positionAt_after (ordered : Ordered track) {last : Sample Rat}
    (isLast : last ∈ track.getLast?) (late : last.time ≤ time) :
    track.positionAt time = last.point := by
  cases track with
  | nil => cases isLast
  | cons first rest =>
    have ended : (first :: rest).getLast (List.cons_ne_nil first rest) = last :=
      Option.some.inj ((List.getLast?_eq_some_getLast _).symm.trans isLast)
    rw [positionAt, ended]
    split
    · next early =>
      have member := List.mem_of_getLast? isLast
      have same : first.time = last.time :=
        le_antisymm (ordered.first_le last member) (late.trans early)
      rw [ordered.eq_of_time (by simp) member same]
    · rfl

theorem Ordered.positionAt_between (ordered : Ordered track)
    (neighbours : (before, after) ∈ track.zip track.tail) (lower : before.time ≤ time)
    (upper : time ≤ after.time) : track.positionAt time = before.toward after time := by
  have advance := ordered.lt_of_neighbours neighbours
  have here : before ∈ track := (List.of_mem_zip neighbours).1
  have there : after ∈ track := List.mem_of_mem_tail (List.of_mem_zip neighbours).2
  cases track with
  | nil => cases here
  | cons first rest =>
    have isLast : (first :: rest).getLast (List.cons_ne_nil first rest) ∈
        (first :: rest).getLast? :=
      List.getLast?_eq_some_getLast _
    rw [positionAt]
    split
    · next early =>
      have begins : time = before.time := le_antisymm (early.trans (ordered.first_le _ here)) lower
      have same : first.time = before.time :=
        le_antisymm (ordered.first_le _ here) (lower.trans early)
      rw [begins, Sample.toward_left, ordered.eq_of_time (by simp) here same]
    · split
      · next late =>
        have ends : time = after.time :=
          le_antisymm upper ((ordered.le_last isLast _ there).trans late)
        have same := le_antisymm (ordered.le_last isLast _ there) (late.trans upper)
        rw [ends, Sample.toward_right advance,
          ordered.eq_of_time there (List.getLast_mem _) same]
      · rw [ordered.inside?_eq neighbours lower upper]
        rfl

end Ordered

section Coordinates

variable {track rest : Track Rat} {first : Sample Rat}

def graph (coordinate : Point Rat → Rat) (track : Track Rat) : List (Rat × Rat) :=
  track.map fun sample => (sample.time, coordinate sample.point)

def Straight (coordinate : Point Rat → Rat) : Prop :=
  ∀ (before after : Sample Rat) (time : Rat), coordinate (before.toward after time) =
    chord (before.time, coordinate before.point) (after.time, coordinate after.point) time

theorem straight_x : Straight (·.x) := by
  intro before after time
  simp [Sample.toward, Sample.point, chord, Curve.slope, div_mul_eq_mul_div]

theorem straight_y : Straight (·.y) := by
  intro before after time
  simp [Sample.toward, Sample.point, chord, Curve.slope, div_mul_eq_mul_div]

theorem mem_neighbours_graph (coordinate : Point Rat → Rat) {pair : Sample Rat × Sample Rat}
    (member : pair ∈ track.zip track.tail) :
    ((pair.1.time, coordinate pair.1.point), (pair.2.time, coordinate pair.2.point)) ∈
      neighbours (track.graph coordinate) := by
  unfold neighbours graph
  rw [← List.map_tail, List.zip_map]
  exact List.mem_map_of_mem member

theorem Ordered.coordinate_eq (ordered : Ordered (first :: rest)) {coordinate : Point Rat → Rat}
    (straight : Straight coordinate) (time : Rat) :
    coordinate (positionAt (first :: rest) time) =
      interpolate (graph coordinate (first :: rest)) (max first.time time) := by
  have increasing : (graph coordinate (first :: rest)).Pairwise fun a b => a.1 < b.1 :=
    List.pairwise_map.mpr ordered
  have follows := follows_interpolate increasing
  obtain ⟨last, isLast⟩ : ∃ last, last ∈ (first :: rest).getLast? :=
    ⟨_, List.getLast?_eq_some_getLast (List.cons_ne_nil first rest)⟩
  rcases le_total time first.time with early | begun
  · rw [max_eq_left early, positionAt_before rfl early]
    exact (interpolate_first increasing).symm
  · rw [max_eq_right begun]
    rcases le_total last.time time with late | inside
    · rw [ordered.positionAt_after isLast late]
      apply (follows.after (last.time, coordinate last.point) _ time late).symm
      unfold graph
      rw [List.getLast?_map, isLast]
      rfl
    · by_cases several : rest = []
      · subst several
        have same : first = last := by simpa using isLast
        have now : time = first.time := le_antisymm (same ▸ inside) begun
        rw [positionAt_before rfl now.le, now]
        exact (interpolate_first increasing).symm
      · obtain ⟨pair, member, lower, upper⟩ := exists_neighbours isLast several begun inside
        rw [ordered.positionAt_between member lower upper, straight]
        exact (follows.between _ (mem_neighbours_graph coordinate member) time lower upper).symm

/-- No coordinate changes faster than along the steepest of its lines. -/
theorem Ordered.steady (ordered : Ordered track) {coordinate : Point Rat → Rat}
    (straight : Straight coordinate) :
    Steady (steepest (track.graph coordinate)) fun time => coordinate (track.positionAt time) := by
  have nonneg : 0 ≤ steepest (track.graph coordinate) := greatest_nonneg _
  intro s t le
  cases track with
  | nil =>
    have still : |coordinate (positionAt [] s) - coordinate (positionAt [] t)| = 0 := by
      simp [positionAt]
    rw [still]
    exact mul_nonneg nonneg (sub_nonneg.mpr le)
  | cons first rest =>
    have increasing : (graph coordinate (first :: rest)).Pairwise fun a b => a.1 < b.1 :=
      List.pairwise_map.mpr ordered
    have lines := steady_interpolate increasing nonneg fun pair member =>
      le_greatest (List.mem_map_of_mem member)
    have short : max first.time t - max first.time s ≤ t - s := by
      rcases le_total first.time s with begun | early
      · rw [max_eq_right begun, max_eq_right (begun.trans le)]
      · have later : max first.time t ≤ first.time + (t - s) := max_le (by linarith) (by linarith)
        rw [max_eq_left early]
        linarith
    simp only [ordered.coordinate_eq straight]
    exact (lines _ _ (max_le_max_left _ le)).trans (mul_le_mul_of_nonneg_left short nonneg)

end Coordinates

theorem continuous_of_steady {speed : Rat} (nonneg : 0 ≤ speed) {f : Rat → Rat}
    (steady : Steady speed f) : Continuous f := by
  have near : ∀ s t, |f s - f t| ≤ speed * |s - t| := by
    intro s t
    rcases le_total s t with le | le
    · rw [abs_sub_comm s t, abs_of_nonneg (sub_nonneg.mpr le)]
      exact steady s t le
    · rw [abs_sub_comm, abs_of_nonneg (sub_nonneg.mpr le)]
      exact steady t s le
  apply LipschitzWith.continuous (K := Real.toNNReal speed)
  apply LipschitzWith.of_dist_le_mul
  intro s t
  rw [Rat.dist_eq, Rat.dist_eq, Real.coe_toNNReal _ (by exact_mod_cast nonneg)]
  exact_mod_cast near s t

theorem Ordered.traces {track : Track Rat} (ordered : Ordered track) :
    track.Traces track.positionAt where
  before _ isFirst _ early := positionAt_before isFirst early
  after _ isLast _ late := ordered.positionAt_after isLast late
  between _ member _ lower upper := ordered.positionAt_between member lower upper
  through sample member := by
    rcases last_or_followed member with isLast | ⟨next, follows⟩
    · exact ordered.positionAt_after isLast le_rfl
    · have advance := ordered.lt_of_neighbours follows
      rw [ordered.positionAt_between follows le_rfl advance.le, Sample.toward_left]
  steady := ⟨⟨_, ordered.steady straight_x⟩, _, ordered.steady straight_y⟩
  continuous := ⟨continuous_of_steady (greatest_nonneg _) (ordered.steady straight_x),
    continuous_of_steady (greatest_nonneg _) (ordered.steady straight_y)⟩

/-- Along samples in order the cursor moves on the straight lines between them. Whatever the samples
are, no moment divides by nought and none leads out of the rectangle around them. -/
theorem positionAt_interpolates (track : Track Rat) :
    (track.Ordered → track.Traces track.positionAt) ∧
      ∀ time, track.positionAt? time = some (track.positionAt time) ∧
        track.Bounds (track.positionAt time) := by
  refine ⟨Ordered.traces, fun time => ⟨?_, ?_⟩⟩
  · exact positionAt?_of_safe (fun _ _ lower upper => between?_of_le lower upper) track
  · unfold Bounds
    split
    · next none =>
      rw [none]
      rfl
    · next recorded =>
      exact encloses_positionAt recorded (fun _ member => List.mem_map_of_mem member) time

/-- A cursor that moves to and fro and then stands still. -/
theorem positionAt_interpolates_to_and_fro :
    let track : Track Rat := [⟨0, 0, 0⟩, ⟨10, 40, 20⟩, ⟨20, 0, 20⟩, ⟨50, 0, 20⟩]
    track.Ordered ∧ track.positionAt 5 = ⟨20, 10⟩ ∧ track.positionAt 10 = ⟨40, 20⟩ ∧
      track.positionAt 12 = ⟨32, 20⟩ := by
  intro track
  have ordered : track.Ordered := by
    unfold Ordered
    decide
  have traces := (positionAt_interpolates track).1 ordered
  have first : (⟨0, 0, 0⟩, ⟨10, 40, 20⟩) ∈ track.zip track.tail := by simp [track]
  have second : (⟨10, 40, 20⟩, ⟨20, 0, 20⟩) ∈ track.zip track.tail := by simp [track]
  refine ⟨ordered, ?_, ?_, ?_⟩
  · rw [traces.between _ first 5 (by norm_num) (by norm_num)]
    norm_num [Sample.toward]
  · exact traces.through ⟨10, 40, 20⟩ (by simp [track])
  · rw [traces.between _ second 12 (by norm_num) (by norm_num)]
    norm_num [Sample.toward]

end Track

end Screencast
