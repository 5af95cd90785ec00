import Mathlib.Data.List.Chain
import Screencast.Proofs.Viewport.Center
import Screencast.Proofs.Viewport.Hull

/-!
Where a pan sets out from if no two windows overlap. It is the place the pan before it led to as
soon as a frame between the two has seen that one land, or shows its very end. Without such a frame
the pan before it is cut off: the next one sets out from wherever the last frame had got to.
-/

namespace Screencast

open Number

variable {α : Type}

structure Glide (α : Type) where
  goal : Point α
  start : α
  duration : α

variable [Number α]

namespace Glide

def toCommand (glide : Glide α) : Command α :=
  .pan (.point glide.goal) glide.start glide.duration

def close (glide : Glide α) : α :=
  Window.close glide.start glide.duration

def onWay (glide : Glide α) (origin : Point α) (time : α) : Point α :=
  let progress := Window.progress time glide.start glide.duration
  ⟨Ease.interpolate origin.x glide.goal.x progress,
    Ease.interpolate origin.y glide.goal.y progress⟩

def Before (glide later : Glide α) : Prop :=
  glide.close ≤ later.start

instance (glide later : Glide α) : Decidable (glide.Before later) :=
  inferInstanceAs (Decidable (glide.close ≤ later.start))

theorem onWay_close (glide : Glide Rat) (origin : Point Rat) :
    glide.onWay origin glide.close = glide.goal := by
  have done : Window.progress glide.close glide.start glide.duration = 1 := by
    unfold Window.progress
    split
    · next long =>
      change (glide.start + larger 0 glide.duration - glide.start) / _ = (1 : Rat)
      rw [add_sub_cancel_left, div_self (ne_of_gt long)]
    · rfl
  have arrived : ∀ from_ to_ : Rat, Ease.interpolate from_ to_ 1 = to_ := fun from_ to_ => by
    rw [Ease.interpolate, Ease.inOut_one, mul_one, add_sub_cancel]
  rw [onWay, done, arrived, arrived]

/-- Glides in the order of their windows, each of which opens before it closes. -/
structure Apart (glides : List (Glide α)) : Prop where
  pairwise : glides.Pairwise Before
  opens : ∀ glide ∈ glides, glide.start ≤ glide.close

variable [LawfulNumber α]

theorem start_le_close_of_nonneg {glide : Glide α} (nonneg : (0 : α) ≤ glide.start) :
    glide.start ≤ glide.close :=
  le_add_larger (.inr nonneg)

/-- It is enough that neighbours do not overlap, from a moment on that is not negative. -/
theorem apart_of_isChain {glides : List (Glide α)} (apart : glides.IsChain Before)
    (nonneg : ∀ glide ∈ glides.head?, (0 : α) ≤ glide.start) : Apart glides := by
  -- That no start is negative goes along the chain: it makes each window open before it closes.
  induction glides with
  | nil => exact ⟨.nil, by simp⟩
  | cons glide later ih =>
    obtain ⟨next, rest⟩ := List.isChain_cons.mp apart
    have opens : glide.start ≤ glide.close := start_le_close_of_nonneg (nonneg glide rfl)
    have after : ∀ other ∈ later.head?, (0 : α) ≤ other.start := fun other isNext =>
      LawfulNumber.le_trans (nonneg glide rfl)
        (LawfulNumber.le_trans opens (next other isNext))
    obtain ⟨pairwise, opensToo⟩ := ih rest after
    refine ⟨List.pairwise_cons.mpr ⟨fun other member => ?_, pairwise⟩, ?_⟩
    · cases later with
      | nil => cases member
      | cons first later =>
        have toFirst : glide.close ≤ first.start := next first rfl
        rcases List.mem_cons.mp member with rfl | further
        · exact toFirst
        · exact LawfulNumber.le_trans toFirst (LawfulNumber.le_trans
            (opensToo first (by simp)) ((List.pairwise_cons.mp pairwise).1 other further))
    · intro other member
      rcases List.mem_cons.mp member with rfl | further
      · exact opens
      · exact opensToo other further

theorem sortOn_of_apart {glides : List (Glide α)} (apart : Apart glides) :
    Order.sortOn Glide.start glides = glides := by
  refine Order.sortOn_of_ordered
    (fun glide member => LawfulNumber.self_le_left (apart.opens glide member)) ?_
  exact apart.pairwise.imp_of_mem fun {glide _} member _ before =>
    LawfulNumber.le_trans (apart.opens glide member) before

omit [LawfulNumber α] in
theorem apply_center_of_open {glide : Glide α} {reached : Frame α × Settled α}
    (inside : Phase.of reached.1.time glide.start glide.duration =
      .inside (Window.progress reached.1.time glide.start glide.duration)) (turn : Nat)
    (track : Track α) : (glide.toCommand.apply turn track reached).1.center =
      glide.onWay (reached.2.origin turn reached.1) reached.1.time := by
  obtain ⟨frame, settled⟩ := reached
  change (settled.panStep turn frame (.point glide.goal) glide.start glide.duration track).1.center
    = _
  rw [Settled.panStep, inside]
  rfl

omit [LawfulNumber α] in
theorem idle_of_waits {glides : List (Glide α)} {time : α}
    (waits : ∀ glide ∈ glides, time < glide.start) :
    ∀ c ∈ glides.map toCommand, c.setsCenter time = false := by
  intro command member
  obtain ⟨glide, among, rfl⟩ := List.mem_map.mp member
  change (Phase.of time glide.start glide.duration).isOpen = false
  rw [Window.phase_of_before (waits glide among)]
  rfl

theorem idle_of_over {glides : List (Glide α)} {time : α}
    (opens : ∀ glide ∈ glides, glide.start ≤ glide.close)
    (isOver : ∀ glide ∈ glides, glide.close < time) :
    ∀ c ∈ glides.map toCommand, c.setsCenter time = false := by
  intro command member
  obtain ⟨glide, among, rfl⟩ := List.mem_map.mp member
  have known : time ≤ time := LawfulNumber.self_le_right (le_of_lt (isOver glide among))
  change (Phase.of time glide.start glide.duration).isOpen = false
  rw [Phase.eq_after_of_past
    ((Phase.past_of_iff_lt (opens glide among) known).mpr (isOver glide among))]
  rfl

end Glide

namespace Timeline

open Glide

variable {glides : List (Glide α)} {track : Track α} {fps : Int} {initial : Settled α}
  {index turn : Nat} {glide : Glide α} {time : α}

omit [Number α] in
theorem getElem?_toCommand (declared : glides[turn]? = some glide) :
    (glides.map toCommand)[turn]? =
      some (.pan (.point glide.goal) glide.start glide.duration) := by
  rw [List.getElem?_map, declared]
  rfl

variable [LawfulNumber α]

theorem waits_drop (apart : Apart glides) (declared : glides[turn]? = some glide)
    (waits : time < glide.start) : ∀ later ∈ glides.drop turn, time < later.start := by
  obtain ⟨inside, rfl⟩ := List.getElem?_eq_some_iff.mp declared
  have rest := apart.pairwise.sublist (List.drop_sublist turn glides)
  rw [List.drop_eq_getElem_cons inside] at rest ⊢
  intro later member
  rcases List.mem_cons.mp member with rfl | further
  · exact waits
  · exact lt_of_lt_of_le waits (LawfulNumber.le_trans (apart.opens _ (List.getElem_mem inside))
      ((List.pairwise_cons.mp rest).1 later further))

theorem over_take (apart : Apart glides) (declared : glides[turn]? = some glide)
    (isOver : glide.close < time) : ∀ earlier ∈ glides.take (turn + 1), earlier.close < time := by
  have front := apart.pairwise.sublist (List.take_sublist (turn + 1) glides)
  rw [List.take_add_one, declared, Option.toList_some] at front ⊢
  intro earlier member
  rcases List.mem_append.mp member with before | own
  · have opens := apart.opens _ (List.mem_of_getElem? declared)
    have ends := (List.pairwise_append.mp front).2.2 earlier before glide (by simp)
    exact lt_of_le_of_lt (LawfulNumber.le_trans ends opens) isOver
  · exact List.mem_singleton.mp own ▸ isOver

omit [LawfulNumber α] in
theorem close_le_start (apart : Apart glides) {previous : Glide α}
    (declared : glides[turn]? = some previous) (next : glides[turn + 1]? = some glide) :
    previous.close ≤ glide.start := by
  obtain ⟨inside, rfl⟩ := List.getElem?_eq_some_iff.mp declared
  obtain ⟨insideToo, rfl⟩ := List.getElem?_eq_some_iff.mp next
  exact List.pairwise_iff_getElem.mp apart.pairwise _ _ inside insideToo turn.lt_succ_self

/-- A frame between two windows: the first glides are over, the others still to come. -/
structure Between (glides : List (Glide α)) (turn : Nat) (time : α) : Prop where
  isOver : ∀ earlier ∈ glides.take turn, earlier.close < time
  waits : ∀ later ∈ glides.drop turn, time < later.start

theorem Between.idle (apart : Apart glides) (between : Between glides turn time) :
    ∀ c ∈ glides.map toCommand, c.setsCenter time = false := by
  rw [← List.take_append_drop turn glides, List.map_append]
  intro command member
  rcases List.mem_append.mp member with earlier | later
  · exact idle_of_over (fun glide inFront => apart.opens glide (List.mem_of_mem_take inFront))
      between.isOver command earlier
  · exact idle_of_waits between.waits command later

omit [LawfulNumber α] in
theorem not_past_of_waits (waits : ∀ later ∈ glides.drop turn, time < later.start) {other : Nat}
    (le : turn ≤ other) : ¬ Command.panPastAt (glides.map toCommand) other time = true := by
  intro isPast
  obtain ⟨goal, start, length, placed⟩ :=
    Command.exists_pan_of_begunAt (Command.panBegunAt_of_panPastAt isPast)
  rw [Command.panPastAt_of_placed placed] at isPast
  rw [List.getElem?_map] at placed
  obtain ⟨glide, declared, isPan⟩ := Option.map_eq_some_iff.mp placed
  have waiting : time < glide.start := waits glide (List.mem_of_getElem? (i := other - turn)
    (by rwa [List.getElem?_drop, Nat.add_sub_cancel' le]))
  obtain ⟨_, rfl, _⟩ : _ ∧ glide.start = start ∧ _ := by simpa [toCommand] using isPan
  exact (Phase.past_of_iff.mp isPast).1 waiting

theorem panPastAt_of_over (apart : Apart glides) (declared : glides[turn]? = some glide)
    (isOver : glide.close < time) : Command.panPastAt (glides.map toCommand) turn time = true := by
  have opens := apart.opens glide (List.mem_of_getElem? declared)
  have comparable := LawfulNumber.self_le_right (le_of_lt isOver)
  exact (Command.panPastAt_iff_lt (getElem?_toCommand declared) opens comparable).mpr isOver

/-- Between two windows nothing moves the settled centre once the glides that are over have been so
in a frame before. -/
theorem center_of_between (apart : Apart glides) (uncommitted : initial.committed = [])
    (between : Between glides turn (moment fps index : α))
    (landed : ∀ earlier ∈ glides.take turn, ∃ k < index, earlier.close < (moment fps k : α)) :
    (settledBefore (glides.map toCommand) track fps initial (index + 1)).center =
      (settledBefore (glides.map toCommand) track fps initial index).center := by
  rw [settledBefore_succ_center_of_idle (between.idle apart),
    reached_settled_center 0 uncommitted]
  · rfl
  · intro other _ isPast
    by_cases le : turn ≤ other
    · exact absurd isPast (not_past_of_waits between.waits le)
    · obtain ⟨goal, start, length, placed⟩ :=
        Command.exists_pan_of_begunAt (Command.panBegunAt_of_panPastAt isPast)
      rw [List.getElem?_map] at placed
      obtain ⟨earlier, declared, _⟩ := Option.map_eq_some_iff.mp placed
      have inFront : (glides.take turn)[other]? = some earlier := by
        rwa [List.getElem?_take_of_lt (not_le.mp le)]
      obtain ⟨k, before, isOver⟩ := landed earlier (List.mem_of_getElem? inFront)
      exact ⟨k, before, panPastAt_of_over apart declared isOver⟩

theorem center_of_first (apart : Apart glides) (uncommitted : initial.committed = [])
    (declared : glides[0]? = some glide)
    (waits : ∀ earlier < index, (moment fps earlier : α) < glide.start) :
    (settledBefore (glides.map toCommand) track fps initial index).center = initial.center := by
  induction index with
  | zero => rfl
  | succ index ih =>
    have between : Between glides 0 (moment fps index : α) :=
      ⟨by simp, waits_drop apart declared (waits index index.lt_succ_self)⟩
    rw [center_of_between apart uncommitted between (by simp)]
    exact ih fun earlier before => waits earlier (before.trans index.lt_succ_self)

omit [LawfulNumber α] in
theorem sortByStart_toCommand (glides : List (Glide α)) :
    Command.sortByStart (glides.map toCommand) =
      (Order.sortOn Glide.start glides).map toCommand :=
  Order.sortOn_map toCommand glides

theorem exists_noted (declared : glides[turn]? = some glide)
    (started : glide.start ≤ (moment fps index : α)) :
    ∃ place, (settledBefore (glides.map toCommand) track fps initial (index + 1)).origins.find?
      turn = some place := by
  have begun : Command.panBegunAt (glides.map toCommand) turn (moment fps index : α) = true := by
    rw [Command.panBegunAt_of_placed (getElem?_toCommand declared)]
    exact Phase.begun_of_iff.mpr (not_lt_of_le started)
  exact ⟨_, find?_settledBefore_succ.trans (if_pos begun)⟩

theorem reached_center_of_open (declared : glides[turn]? = some glide)
    (opened : glide.start ≤ (moment fps index : α))
    (notClosed : (moment fps index : α) ≤ glide.close) {place : Point α}
    (noted : (settledBefore (glides.map toCommand) track fps initial (index + 1)).origins.find?
      turn = some place) :
    (reached (glides.map toCommand) track fps initial index (turn + 1)).1.center =
      glide.onWay place (moment fps index) := by
  have phase := Window.phase_of_inside opened notClosed
  have begun : Command.panBegunAt (glides.map toCommand) turn (moment fps index : α) = true := by
    rw [Command.panBegunAt_of_placed (getElem?_toCommand declared), phase]
    rfl
  rw [find?_settledBefore_succ, if_pos begun, Settled.origin, ← find?_reached] at noted
  have step : (reached (glides.map toCommand) track fps initial index (turn + 1)).1.center =
      (glide.toCommand.apply turn track
        (reached (glides.map toCommand) track fps initial index turn)).1.center :=
    congrArg (·.1.center) (reached_succ (getElem?_toCommand declared))
  have time : (reached (glides.map toCommand) track fps initial index turn).1.time =
      moment fps index := reached_time
  rw [← time] at phase ⊢
  rw [step, ← Option.some.inj noted]
  exact apply_center_of_open phase turn track

section Clock

variable (positive : 0 < fps) (range : isFinite (ofInt fps : α) = true)
include positive range

/-- A glide that has landed leaves its goal as the centre until the next one begins. -/
theorem center_of_landed (apart : Apart glides) (unnoted : initial.origins = [])
    (uncommitted : initial.committed = []) (declared : glides[turn]? = some glide) {landing : Nat}
    (lands : IsLeast {k | glide.close < (moment fps k : α)} landing) (later : landing < index)
    (waits : ∀ earlier < index, ∀ next ∈ glides.drop (turn + 1),
      (moment fps earlier : α) < next.start) :
    (settledBefore (glides.map toCommand) track fps initial index).center = glide.goal := by
  have between : ∀ k, landing ≤ k → k < index → Between glides (turn + 1) (moment fps k : α) :=
    fun k le before => ⟨over_take apart declared
      (lt_of_lt_of_le lands.1 (moment_le positive range le)), waits k before⟩
  induction index, later using Nat.le_induction with
  | base =>
    have opens := apart.opens glide (List.mem_of_getElem? declared)
    have onTime : PanOnTime (glides.map toCommand) track fps initial turn (.point glide.goal)
        glide.start glide.duration landing :=
      panOnTime positive range unnoted uncommitted opens (getElem?_toCommand declared) landing
    obtain ⟨_, _, _, origin, _, arrived⟩ := onTime.lands lands
    rw [settledBefore_succ_center_of_idle
        ((between landing le_rfl landing.lt_succ_self).idle apart),
      reached_settled_center (turn + 1) uncommitted, arrived]
    · rfl
    · intro other le isPast
      exact absurd isPast (not_past_of_waits (waits landing landing.lt_succ_self) le)
  | succ index later ih =>
    have inTime : landing ≤ index := Nat.le_of_lt later
    rw [center_of_between apart uncommitted (between index inTime index.lt_succ_self)]
    · exact ih (fun k before => waits k (before.trans index.lt_succ_self))
        fun k le before => between k le (before.trans index.lt_succ_self)
    · exact fun earlier member =>
        ⟨landing, later, over_take apart declared lands.1 earlier member⟩

theorem waits_of_least {start : α} {first : Nat}
    (least : IsLeast {k | start ≤ (moment fps k : α)} first) (before : index < first) :
    (moment fps index : α) < start :=
  lt_of_not_le (LawfulNumber.self_le_left least.1) (moment_le positive range (le_refl index))
    fun started => (least.2 started).not_gt before

/-- Where a glide sets out from when another one, which set out from a place itself, comes before
it. -/
structure SetsOut (previous : Glide α) (fps : Int) (settled : Nat → Settled α) (place : Point α)
    (first : Nat) (origin : Point α) : Prop where
  /-- Some frame has seen the other one land. -/
  landed : (∃ index < first, previous.close < (moment fps index : α)) → origin = previous.goal
  /-- The other one arrives in this very frame. -/
  arriving : moment fps first ≤ previous.close →
    origin = previous.onWay place (moment fps first)
  /-- No frame before has seen the other one at all. -/
  skipped : previous.close < moment fps first →
    IsLeast {k | previous.start ≤ (moment fps k : α)} first → origin = place
  /-- The last frame has seen the other one on its way, and has moved with it. -/
  cutOff : ∀ index, first = index + 1 → previous.close < moment fps first →
    previous.start ≤ moment fps index → moment fps index ≤ previous.close →
    (previous.onWay place (moment fps index)).same (settled index).center = false →
      origin = previous.onWay place (moment fps index)

theorem setsOut (apart : Apart glides) (unnoted : initial.origins = [])
    (uncommitted : initial.committed = []) {previous : Glide α}
    (declared : glides[turn]? = some previous) (next : glides[turn + 1]? = some glide) {first : Nat}
    (least : IsLeast {k | glide.start ≤ (moment fps k : α)} first) {place : Point α}
    (noted : (settledBefore (glides.map toCommand) track fps initial (first + 1)).origins.find?
      turn = some place) :
    SetsOut previous fps (settledBefore (glides.map toCommand) track fps initial) place first
      (reached (glides.map toCommand) track fps initial first (turn + 1)).1.center := by
  have opens : previous.start ≤ previous.close :=
    apart.opens previous (List.mem_of_getElem? declared)
  have waits : ∀ k < first, ∀ later ∈ glides.drop (turn + 1), (moment fps k : α) < later.start :=
    fun k before => waits_drop apart next (waits_of_least positive range least before)
  have shown : previous.close < (moment fps first : α) →
      (reached (glides.map toCommand) track fps initial first (turn + 1)).1.center =
        (settledBefore (glides.map toCommand) track fps initial first).center := fun isOver => by
    have inFront := over_take apart declared isOver
    refine reached_center ?_
    rw [← List.map_take]
    exact idle_of_over (fun earlier member => apart.opens earlier (List.mem_of_mem_take member))
      inFront
  refine { landed := ?_, arriving := fun arrives => ?_, skipped := fun isOver begins => ?_,
           cutOff := fun index isNext isOver started notOver moved => ?_ }
  · rintro ⟨index, before, isOver⟩
    have landing : ∃ k, previous.close < (moment fps k : α) := ⟨index, isOver⟩
    have lands : IsLeast {k | previous.close < (moment fps k : α)} (Nat.find landing) :=
      Nat.isLeast_find landing
    have inTime : Nat.find landing < first := (Nat.find_min' landing isOver).trans_lt before
    rw [shown (lt_of_lt_of_le isOver (moment_le positive range before.le))]
    exact center_of_landed positive range apart unnoted uncommitted declared lands inTime waits
  · have opened : previous.start ≤ (moment fps first : α) :=
      LawfulNumber.le_trans opens (LawfulNumber.le_trans (close_le_start apart declared next)
        least.1)
    exact reached_center_of_open declared opened arrives noted
  · have isPast : previous.toCommand.panPast
        (reached (glides.map toCommand) track fps initial first turn).1.time = true := by
      rw [reached_time]
      exact (Phase.past_of_iff_lt opens (LawfulNumber.self_le_right (le_of_lt isOver))).mpr isOver
    have same : (reached (glides.map toCommand) track fps initial first (turn + 1)).1 =
        (reached (glides.map toCommand) track fps initial first turn).1 :=
      (congrArg Prod.fst (reached_succ (getElem?_toCommand declared))).trans
        (Command.apply_frame_of_panPast isPast)
    rw [find?_of_started positive range unnoted (getElem?_toCommand declared) begins
      first.lt_succ_self] at noted
    rw [same]
    exact Option.some.inj noted
  -- The frame before was moved by the previous glide alone, and this one starts from its centre.
  · subst isNext
    obtain ⟨placeThen, notedThen⟩ : ∃ place, (settledBefore (glides.map toCommand) track fps
        initial (index + 1)).origins.find? turn = some place := exists_noted declared started
    obtain rfl : placeThen = place :=
      Option.some.inj ((find?_of_noted notedThen (index + 1).le_succ).symm.trans noted)
    have there : (frameAt (glides.map toCommand) track fps initial index).center =
        previous.onWay placeThen (moment fps index) := by
      rw [← reached_center_of_open declared started notOver notedThen]
      refine frameAt_center_of_idle_drop _ ?_
      rw [← List.map_drop]
      exact idle_of_waits (waits index index.lt_succ_self)
    rw [shown isOver, settledBefore_succ_center, there, moved, if_neg Bool.false_ne_true]

end Clock

/-- A glide sets out from where the one before it stopped, if a frame has seen that one land or
shows its very end; the first one sets out from the middle of the picture. -/
theorem build_pan_origin (glides : List (Glide α)) (track : Track α) (duration : α) (fps : Int)
    (resolution : Int × Int) (apart : (Order.sortOn Glide.start glides).IsChain Before)
    (nonneg : ∀ glide ∈ (Order.sortOn Glide.start glides).head?, (0 : α) ≤ glide.start)
    (positive : 0 < fps) :
    let ordered := Order.sortOn Glide.start glides
    let commands := glides.map toCommand
    let settled := settledBefore (Command.sortByStart commands) track fps
      (.initial resolution.1 resolution.2)
    (isFinite (duration * ofInt fps) = true →
      ∃ frames, build commands track duration fps resolution = .ok frames) ∧
    ∀ frames, build commands track duration fps resolution = .ok frames →
      ∀ (turn : Nat) (glide : Glide α) (first : Nat), ordered[turn]? = some glide →
        IsLeast {k | glide.start ≤ (moment fps k : α)} first → first < frames.length →
        ∃ origin, (settled frames.length).origins.find? turn = some origin ∧
          (turn = 0 → origin = ⟨ofInt resolution.1 / 2, ofInt resolution.2 / 2⟩) ∧
          ∀ (earlier : Nat) (previous : Glide α), turn = earlier + 1 →
            ordered[earlier]? = some previous →
            ∃ place, (settled frames.length).origins.find? earlier = some place ∧
              SetsOut previous fps settled place first origin := by
  intro ordered commands settled
  have isApart : Apart ordered := apart_of_isChain apart nonneg
  have isSettled : settled = settledBefore (ordered.map toCommand) track fps
      (.initial resolution.1 resolution.2) :=
    congrArg (settledBefore · track fps _) (sortByStart_toCommand glides)
  refine ⟨fun range => ?_, fun frames built turn glide first declared least inVideo => ?_⟩
  · obtain ⟨count, counted⟩ := frameCount_of_isFinite range
    exact ⟨_, build_eq_ok_iff.mpr ⟨count, counted, rfl⟩⟩
  have range : isFinite (ofInt fps : α) = true := LawfulNumber.isFinite_of_mul
    (eq_frameAt_of_build built (List.getElem?_eq_getElem inVideo)).1
  refine ⟨(reached (ordered.map toCommand) track fps (.initial resolution.1 resolution.2) first
    turn).1.center, ?_, ?_, ?_⟩
  · rw [isSettled]
    exact find?_of_started positive range rfl (getElem?_toCommand declared) least inVideo
  · rintro rfl
    exact center_of_first isApart rfl declared fun _ before =>
      waits_of_least positive range least before
  · rintro earlier previous rfl declaredToo
    have started : previous.start ≤ (moment fps first : α) :=
      LawfulNumber.le_trans (isApart.opens previous (List.mem_of_getElem? declaredToo))
        (LawfulNumber.le_trans (close_le_start isApart declaredToo declared) least.1)
    obtain ⟨place, noted⟩ : ∃ place, (settledBefore (ordered.map toCommand) track fps
        (.initial resolution.1 resolution.2) (first + 1)).origins.find? earlier = some place :=
      exists_noted declaredToo started
    rw [isSettled]
    exact ⟨place, find?_of_noted noted inVideo,
      setsOut positive range isApart rfl rfl declaredToo declared least noted⟩

/-- The second pan sets out in the frame that shows the end of the first, the third long after. -/
theorem build_pan_origin_aligned :
    let glides : List (Glide Rat) := [⟨⟨0, 0⟩, 0, 1⟩, ⟨⟨200, 100⟩, 1, 1⟩, ⟨⟨50, 50⟩, 4, -1⟩]
    let settled := settledBefore (Command.sortByStart (glides.map toCommand)) [] 1
      (.initial 200 100) 6
    settled.origins.find? 0 = some ⟨100, 50⟩ ∧ settled.origins.find? 1 = some ⟨0, 0⟩ ∧
      settled.origins.find? 2 = some ⟨200, 100⟩ := by
  intro glides settled
  have apart : glides.IsChain Before := by decide +kernel
  have nonneg : ∀ glide ∈ glides.head?, 0 ≤ glide.start := by simp [glides]
  have sorted : Order.sortOn Glide.start glides = glides :=
    sortOn_of_apart (apart_of_isChain apart nonneg)
  obtain ⟨exists_, origins⟩ := build_pan_origin glides [] 6 1 (200, 100)
    (sorted.symm ▸ apart) (sorted.symm ▸ nonneg) (by decide)
  obtain ⟨frames, built⟩ := exists_ rfl
  have six : frames.length = 6 := by
    obtain ⟨count, counted, rfl⟩ := build_eq_ok_iff.mp built
    rw [List.length_map, List.length_range]
    exact (Except.ok.inj counted).symm.trans (by decide +kernel)
  have least : ∀ n : Nat, IsLeast {k | (n : Rat) ≤ moment 1 k} n := fun n => by
    have seconds : ∀ k : Nat, (moment 1 k : Rat) = k := fun k => by
      change ((k : Int) : Rat) / ((1 : Int) : Rat) = k
      rw [Int.cast_one, div_one, Int.cast_natCast]
    simp only [seconds, Nat.cast_le]
    exact isLeast_Ici
  rw [sorted] at origins
  obtain ⟨origin, noted, middle, _⟩ := origins frames built 0 ⟨⟨0, 0⟩, 0, 1⟩ 0 rfl
    (by simpa using least 0) (by rw [six]; decide)
  obtain ⟨second, notedToo, _, fromFirst⟩ := origins frames built 1 ⟨⟨200, 100⟩, 1, 1⟩ 1 rfl
    (by simpa using least 1) (by rw [six]; decide)
  obtain ⟨third, notedLast, _, fromSecond⟩ := origins frames built 2 ⟨⟨50, 50⟩, 4, -1⟩ 4 rfl
    (by simpa using least 4) (by rw [six]; decide)
  obtain ⟨_, _, arriving⟩ := fromFirst 0 _ rfl rfl
  obtain ⟨_, _, landed⟩ := fromSecond 1 _ rfl rfl
  rw [six] at noted notedToo notedLast
  refine ⟨?_, ?_, ?_⟩
  · rw [noted, middle rfl]
    decide +kernel
  · have ends : (moment 1 1 : Rat) = Glide.close ⟨⟨0, 0⟩, 0, 1⟩ := by decide +kernel
    rw [notedToo, arriving.arriving (by decide +kernel), ends, onWay_close]
  · rw [notedLast, landed.landed ⟨3, by decide, by decide +kernel⟩]

/-- The first pan is over between two frames, and the second one starts in the frame in which the
first one lands: it sets out from where the first one was last seen. -/
theorem pan_origin_cut_off :
    let glides : List (Glide Rat) := [⟨⟨0, 0⟩, 1 / 2, 1⟩, ⟨⟨200, 100⟩, 2, 2⟩]
    (Order.sortOn Glide.start glides).IsChain Before ∧ (∀ glide ∈ glides, 0 ≤ glide.start) ∧
      (settledBefore (Command.sortByStart (glides.map toCommand)) [] 1 (.initial 200 100)
        5).origins.find? 1 = some ⟨50, 25⟩ ∧
      (⟨50, 25⟩ : Point Rat) ≠ ⟨0, 0⟩ := by
  decide +kernel

end Timeline

end Screencast
