import Screencast.Proofs.Audio.Settling

/-!
A volume that follows its ramps. Where each of them is over when the next begins the volume that the
events command is plain: level, then straight to the next level in the course of a ramp. The curve
as it is written keeps close to it; only near the start and the end of a ramp, whose moments are
written with two places, may it take the stretch before or behind.
-/

namespace Screencast

open Number

namespace Curve

variable {valuePlaces slopePlaces : Int} {a b : Rat × Rat} {time : Rat}

/-- From the written moment of a point on its line is taken up to the written moment of the next;
if that one is no later the line is never taken. -/
theorem eval_piecewise_of_reached (valueNonneg : 0 ≤ valuePlaces) (slopeNonneg : 0 ≤ slopePlaces)
    (rest : List (Rat × Rat)) (reached : roundTo 2 a.1 ≤ time) :
    (piecewise valuePlaces slopePlaces (a :: b :: rest)).eval time =
      if time < roundTo 2 b.1 then
        .ok (roundTo valuePlaces.toNat a.2 +
          roundTo slopePlaces.toNat (slope a b) * (time - roundTo 2 a.1))
      else (piecewise valuePlaces slopePlaces (b :: rest)).eval time := by
  rw [piecewise]
  split
  · next notLater =>
    rw [if_neg (not_lt.mpr ((roundTo_mono 2 notLater).trans reached))]
  · rw [eval_ifBefore (eval_num b.1 (by decide : (0 : Int) ≤ 2) time),
      eval_line a.2 _ a.1 valueNonneg slopeNonneg time]
    rfl

theorem lt_written_iff {moment : Rat} (far : 1 / 200 < |time - moment|) :
    time < roundTo 2 moment ↔ time < moment := by
  obtain ⟨lower, upper⟩ := abs_le.mp (abs_moment_sub_le moment)
  rcases lt_abs.mp far with behind | before <;> constructor <;> intro less <;> linarith

end Curve

namespace Automation

open Curve

def Ramp.slope (ramp : Ramp Rat) (origin : Rat) : Rat :=
  (ramp.level - origin) / (ramp.finish - ramp.begin)

def Successive (ramps : List (Ramp Rat)) : Prop :=
  ramps.IsChain fun ramp next => ramp.finish ≤ next.begin

theorem Successive.pairwise {ramps : List (Ramp Rat)} (successive : Successive ramps) :
    ramps.Pairwise fun ramp later => ramp.finish ≤ later.begin := by
  have : IsTrans (Ramp Rat) fun ramp later => ramp.finish ≤ later.begin :=
    ⟨fun _ middle _ le leToo => le.trans (middle.begin_le_finish.trans leToo)⟩
  exact List.isChain_iff_pairwise.mp successive

/-- A part of a volume that goes in a straight line: since when it does, the level it sets out from
and how fast it rises. -/
structure Stretch where
  since : Rat
  level : Rat
  slope : Rat
deriving DecidableEq

def Stretch.volume (stretch : Stretch) (time : Rat) : Rat :=
  stretch.level + stretch.slope * (time - stretch.since)

/-- The stretch that a time belongs to, if the volume has a level since some time: it stays there
until a ramp begins, goes straight to the level of that one while it runs, and on from there. -/
def stretchAt (time since current : Rat) : List (Ramp Rat) → Stretch
  | [] => ⟨since, current, 0⟩
  | ramp :: rest =>
    if time < ramp.begin then ⟨since, current, 0⟩
    else if time < ramp.finish then ⟨ramp.begin, current, ramp.slope current⟩
    else stretchAt time ramp.finish ramp.level rest

section Written

variable {since current time : Rat} {ramp : Ramp Rat} {rest ramps : List (Ramp Rat)}

def Ramp.written (ramp : Ramp Rat) (origin time : Rat) : Rat :=
  roundTo 3 origin + roundTo 4 (ramp.slope origin) * (time - roundTo 2 ramp.begin)

theorem eval_corners_cons (reached : roundTo 2 since ≤ time) :
    (piecewise 3 4 ((since, current) :: corners current (ramp :: rest))).eval time =
      if time < roundTo 2 ramp.begin then .ok (roundTo 3 current)
      else if time < roundTo 2 ramp.finish then .ok (ramp.written current time)
      else (piecewise 3 4 ((ramp.finish, ramp.level) :: corners ramp.level rest)).eval time := by
  have level : Curve.slope (since, current) (ramp.begin, current) = 0 := by
    rw [Curve.slope, sub_self, zero_div]
  have nought : roundTo 4 0 = 0 := roundTo_intCast 4 0
  change (piecewise 3 4 ((since, current) :: (ramp.begin, current) ::
    (ramp.finish, ramp.level) :: corners ramp.level rest)).eval time = _
  rw [eval_piecewise_of_reached (a := (since, current)) (by decide) (by decide) _ reached, level]
  split
  · change Except.ok (roundTo 3 current + roundTo 4 0 * _) = _
    rw [nought, zero_mul, add_zero]
  · next begun =>
    rw [eval_piecewise_of_reached (a := (ramp.begin, current)) (by decide) (by decide) _
      (not_lt.mp begun)]
    rfl

theorem abs_written_sub_le (ramp : Ramp Rat) (origin : Rat) {reach : Rat}
    (reached : |time - roundTo 2 ramp.begin| ≤ reach) :
    |ramp.written origin time - (origin + ramp.slope origin * (time - ramp.begin))| ≤
      1 / 2000 + 1 / 20000 * reach + 1 / 200 * |ramp.slope origin| := by
  have near := abs_line_sub_chord_le (ramp.begin, origin) (ramp.finish, ramp.level) 3 4 reached
  refine near.trans_eq ?_
  change 1 / 2 / 10 ^ 3 + 1 / 2 / 10 ^ 4 * reach + |ramp.slope origin| * (1 / 200) = _
  ring

/-- The induction is on the ramps; far from the start and the end of each, the curve and the volume
pass on to the next stretch at once. -/
theorem exists_eval_near (reached : roundTo 2 since ≤ time) (begun : since ≤ time)
    (far : ∀ ramp ∈ ramps, 1 / 200 < |time - ramp.begin| ∧ 1 / 200 < |time - ramp.finish|) :
    ∃ value, (piecewise 3 4 ((since, current) :: corners current ramps)).eval time = .ok value ∧
      |value - (stretchAt time since current ramps).volume time| ≤
        1 / 2000 + 1 / 20000 * (time - (stretchAt time since current ramps).since + 1 / 200) +
          1 / 200 * |(stretchAt time since current ramps).slope| := by
  have level : ∀ {since current : Rat}, since ≤ time →
      |roundTo 3 current - Stretch.volume ⟨since, current, 0⟩ time| ≤
        1 / 2000 + 1 / 20000 * (time - since + 1 / 200) + 1 / 200 * |(0 : Rat)| := by
    intro since current begun
    have value := abs_roundTo_sub_le 3 current
    rw [Stretch.volume, zero_mul, add_zero, abs_zero]
    linarith
  induction ramps generalizing since current with
  | nil => exact ⟨_, eval_num current (by decide : (0 : Int) ≤ 3) time, level begun⟩
  | cons ramp rest ih =>
    obtain ⟨⟨farBegin, farFinish⟩, farRest⟩ := List.forall_mem_cons.mp far
    rw [eval_corners_cons reached, stretchAt]
    simp only [lt_written_iff farBegin, lt_written_iff farFinish]
    by_cases before : time < ramp.begin
    · rw [if_pos before, if_pos before]
      exact ⟨_, rfl, level begun⟩
    · rw [if_neg before, if_neg before]
      by_cases inside : time < ramp.finish
      · rw [if_pos inside, if_pos inside]
        refine ⟨_, rfl, abs_written_sub_le ramp current ?_⟩
        have written := abs_le.mp (abs_moment_sub_le ramp.begin)
        rw [abs_le]
        constructor <;> linarith
      · rw [if_neg inside, if_neg inside]
        have behind : ¬ time < roundTo 2 ramp.finish := mt (lt_written_iff farFinish).mp inside
        exact ih (not_lt.mp behind) (not_lt.mp inside) farRest

end Written

theorem ofEvents_of_stablySorted (initial : Rat) {events : List (Event Rat)}
    {ramps : List (Ramp Rat)} (changed : ramps ≠ [])
    (sorted : Order.StablySorted Ramp.time (events.filterMap ramp?) ramps) :
    ofEvents initial events = some (piecewise 3 4 ((0, initial) :: corners initial ramps)) := by
  have nonempty : events.filterMap ramp? ≠ [] := fun none => changed (by
    simpa [none] using sorted.perm)
  have comparable : ∀ ramp : Ramp Rat, ramp.time ≤ ramp.time := fun ramp => le_refl ramp.time
  have sortedToo : Order.StablySorted Ramp.time (events.filterMap ramp?)
      (Order.sortOn Ramp.time (events.filterMap ramp?)) :=
    Order.sortOn_stablySorted fun ramp _ => comparable ramp
  have same : Order.sortOn Ramp.time (events.filterMap ramp?) = ramps :=
    Order.eq_of_ordered (fun ramp _ => comparable ramp) sortedToo.ordered sorted.ordered
      fun ramp => (sortedToo.stable ramp).trans (sorted.stable ramp).symm
  rw [ofEvents_eq_ofRamps initial nonempty, ofRamps, same]

/-- The starts and the ends of ramps up to a time, and the moment from which on they are looked
at. -/
def cornersUpTo (since : Rat) (ramps : List (Ramp Rat)) (time : Rat) : Set Rat :=
  {moment | moment ≤ time ∧
    (moment = since ∨ ∃ ramp ∈ ramps, moment = ramp.begin ∨ moment = ramp.finish)}

section Corners

variable {since time moment : Rat} {ramp : Ramp Rat} {rest ramps : List (Ramp Rat)}

theorem mem_cornersUpTo_cons : moment ∈ cornersUpTo since (ramp :: rest) time ↔
    moment ≤ time ∧ (moment = since ∨ moment = ramp.begin) ∨
      moment ∈ cornersUpTo ramp.finish rest time := by
  simp only [cornersUpTo, Set.mem_ofPred_eq, List.exists_mem_cons_iff]
  grind

theorem le_of_mem_cornersUpTo (behind : ∀ ramp ∈ ramps, since ≤ ramp.begin)
    (member : moment ∈ cornersUpTo since ramps time) : since ≤ moment := by
  obtain ⟨_, rfl | ⟨ramp, inRamps, rfl | rfl⟩⟩ := member
  · exact le_rfl
  · exact behind ramp inRamps
  · exact (behind ramp inRamps).trans ramp.begin_le_finish

theorem isGreatest_since {current : Rat} (begun : since ≤ time)
    (behind : ∀ ramp ∈ ramps, since ≤ ramp.begin) (successive : Successive ramps) :
    IsGreatest (cornersUpTo since ramps time) (stretchAt time since current ramps).since := by
  induction ramps generalizing since current with
  | nil =>
    refine ⟨⟨begun, .inl rfl⟩, ?_⟩
    rintro _ ⟨_, rfl | ⟨ramp, member, _⟩⟩
    · exact le_rfl
    · cases member
  | cons ramp rest ih =>
    have since_le : since ≤ ramp.begin := behind ramp (by simp)
    have length := ramp.begin_le_finish
    have behindRest : ∀ later ∈ rest, ramp.finish ≤ later.begin :=
      (List.pairwise_cons.mp successive.pairwise).1
    unfold stretchAt
    split
    · next before =>
      refine ⟨mem_cornersUpTo_cons.mpr (.inl ⟨begun, .inl rfl⟩), fun moment member => ?_⟩
      rcases mem_cornersUpTo_cons.mp member with ⟨le, rfl | rfl⟩ | later
      · exact le_rfl
      · exact absurd before (not_lt.mpr le)
      · have := le_of_mem_cornersUpTo behindRest later
        linarith [later.1]
    · next started =>
      have begin_le := not_lt.mp started
      split
      · next inside =>
        refine ⟨mem_cornersUpTo_cons.mpr (.inl ⟨begin_le, .inr rfl⟩), fun moment member => ?_⟩
        rcases mem_cornersUpTo_cons.mp member with ⟨_, rfl | rfl⟩ | later
        · exact since_le
        · exact le_rfl
        · have := le_of_mem_cornersUpTo behindRest later
          linarith [later.1]
      · next past =>
        -- Past the ramp only its end can be a last corner, and the ramps to come are behind it.
        obtain ⟨last, greatest⟩ := @ih _ ramp.level (not_lt.mp past) behindRest successive.tail
        have finish_le := le_of_mem_cornersUpTo behindRest last
        refine ⟨mem_cornersUpTo_cons.mpr (.inr last), fun moment member => ?_⟩
        rcases mem_cornersUpTo_cons.mp member with ⟨_, rfl | rfl⟩ | later
        · linarith
        · linarith
        · exact greatest later

end Corners

/-- Where no two ramps overlap, at a distance from the start and the end of each, the written curve
keeps to the volume that the ramps command. What is left is half of the last place of a level, half
of the last place of a slope over the time since the last corner, and what the slope makes of five
thousandths of a second. -/
theorem volume_follows_ramps (initial : Rat) {events : List (Event Rat)} {ramps : List (Ramp Rat)}
    (sorted : Order.StablySorted Ramp.time (events.filterMap ramp?) ramps) (changed : ramps ≠ [])
    (nonneg : ∀ ramp ∈ ramps, 0 ≤ ramp.time) (successive : Successive ramps) :
    ∃ curve, ofEvents initial events = some curve ∧ ∀ time, 0 ≤ time →
      (∀ ramp ∈ ramps, 1 / 200 < |time - ramp.begin| ∧ 1 / 200 < |time - ramp.finish|) →
        let stretch := stretchAt time 0 initial ramps
        IsGreatest (cornersUpTo 0 ramps time) stretch.since ∧
          ∃ value, curve.eval time = .ok value ∧
            |value - stretch.volume time| ≤ 1 / 2000 +
              1 / 20000 * (time - stretch.since + 1 / 200) + 1 / 200 * |stretch.slope| := by
  refine ⟨_, ofEvents_of_stablySorted initial changed sorted, fun time begun far => ?_⟩
  have behind : ∀ ramp ∈ ramps, 0 ≤ ramp.begin := fun ramp member =>
    div_nonneg (nonneg ramp member) (by norm_num)
  have start : roundTo 2 0 ≤ time := (roundTo_intCast 2 0).trans_le begun
  exact ⟨isGreatest_since begun behind successive, exists_eval_near start begun far⟩

/-- A ramp of two seconds, and at its end a step that was recorded before it. -/
theorem volume_follows_ramps_halfway :
    let events : List (Event Rat) := [⟨2, 3000, .volume (some (.amount (1 / 4))) 0⟩,
      ⟨2, 1000, .volume (some (.amount (1 / 2))) 2000⟩]
    ∃ curve value, ofEvents 1 events = some curve ∧ curve.eval 2 = .ok value ∧
      |value - 3 / 4| ≤ 1 / 2000 + 1 / 20000 * (1 + 1 / 200) + 1 / 200 * (1 / 4) := by
  intro events
  let ramps : List (Ramp Rat) := [⟨1000, 2000, 1 / 2⟩, ⟨3000, 0, 1 / 4⟩]
  have inOrder : Order.sortOn Ramp.time (events.filterMap ramp?) = ramps := by decide +kernel
  have sorted : Order.StablySorted Ramp.time (events.filterMap ramp?) ramps :=
    inOrder ▸ Order.sortOn_stablySorted fun ramp _ => le_refl ramp.time
  have successive : Successive ramps := by
    unfold Successive
    decide +kernel
  have far : ∀ ramp ∈ ramps, 1 / 200 < |2 - ramp.begin| ∧ 1 / 200 < |2 - ramp.finish| := by
    decide +kernel
  have halfway : stretchAt 2 0 1 ramps = ⟨1, 1, -1 / 4⟩ := by decide +kernel
  obtain ⟨curve, made, follows⟩ := volume_follows_ramps 1 sorted (by simp [ramps])
    (by decide +kernel) successive
  obtain ⟨_, value, evaluated, near⟩ := follows 2 (by norm_num) far
  refine ⟨curve, value, made, evaluated, ?_⟩
  rw [halfway] at near
  norm_num [Stretch.volume] at near ⊢
  exact near

end Automation

end Screencast
