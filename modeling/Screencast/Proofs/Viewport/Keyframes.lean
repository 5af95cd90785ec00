import Screencast.Proofs.Number.Places
import Screencast.Proofs.Steps
import Screencast.Proofs.Viewport.Compiled

/-!
The key frames of a timeline, counted exactly. They are the frames whose numbers are multiples of
the step, and the last one; so each is later than the one before it, by no more than a step, and
the curves through them turn at every one.
-/

namespace Screencast

theorem Rounding.ceil_ratio (num : Nat) {den : Nat} (positive : 0 < den) :
    ⌈(num : Rat) / den⌉ = ((num + den - 1) / den : Nat) := by
  generalize whole : (num + den - 1) / den = n
  have least : n * den ≤ num + den - 1 := whole ▸ Nat.div_mul_le_self _ _
  have most : num + den - 1 < (n + 1) * den := by
    rw [← whole, ← Nat.div_lt_iff_lt_mul positive]
    exact Nat.lt_succ_self _
  rw [Nat.add_mul, Nat.one_mul] at most
  have units : (0 : Rat) < den := by exact_mod_cast positive
  rw [Int.ceil_eq_iff, Int.cast_natCast]
  constructor
  · rw [lt_div_iff₀ units, sub_mul, one_mul, sub_lt_iff_lt_add]
    exact_mod_cast (by omega : n * den < num + den)
  · rw [div_le_iff₀ units]
    exact_mod_cast (by omega : num ≤ n * den)

theorem Exact.ceil_ofRat (q : Rat) : (Exact.ofRat q).ceil = .ok ⌈q⌉ := by
  have value : (q.num : Rat) / q.den = q := Rat.num_div_den q
  obtain ⟨floor, -⟩ := Rounding.floor_ratio q.num.natAbs q.den_pos
  have ceil := Rounding.ceil_ratio q.num.natAbs q.den_pos
  rw [← Int.cast_natCast q.num.natAbs] at floor ceil
  unfold ofRat Exact.ceil toInteger
  by_cases below : q.num < 0
  · have size : (q.num.natAbs : Int) = -q.num := by omega
    rw [size, Int.cast_neg, neg_div, value] at floor
    have negated : ⌈q⌉ = -((q.num.natAbs / q.den : Nat) : Int) := by
      rw [← floor, ← Int.ceil_neg, neg_neg]
    simp only [below, decide_true, if_true, negated]
  · have size : (q.num.natAbs : Int) = q.num := by omega
    rw [size, value] at ceil
    simp only [below, decide_false, Bool.false_eq_true, if_false, ceil]

namespace Curve

variable {α : Type}

mutual

def choices : Curve α → Nat
  | .num .. => 0
  | .var _ => 0
  | .binary _ left right => left.choices + right.choices
  | .call function args => (if function = .choose then 1 else 0) + allChoices args

def allChoices : List (Curve α) → Nat
  | [] => 0
  | arg :: rest => arg.choices + allChoices rest

end

/-- The moments at which a chain of choices goes over from one curve to the next. -/
def corners : Curve α → List α
  | .call .choose [.call .less [_, .num moment _], _, later] => moment :: later.corners
  | _ => []

theorem corners_num (value : α) (places : Int) : (num value places).corners = [] := by
  simp [corners]

theorem corners_ifBefore (moment : α) (earlier later : Curve α) :
    (ifBefore moment earlier later).corners = moment :: later.corners := by
  simp [ifBefore, corners]

theorem choices_ifBefore (moment : α) (earlier later : Curve α) :
    (ifBefore moment earlier later).choices = earlier.choices + later.choices + 1 := by
  simp [ifBefore, choices, allChoices, time]
  omega

theorem choices_line (v slope t : α) (valuePlaces slopePlaces : Int) :
    (line v slope t valuePlaces slopePlaces).choices = 0 := by
  simp [line, add, mul, sub, time, choices]

/-- Whether a curve changes its line at each of some times but the first, and nowhere else. -/
structure TurnsAt (times : List Rat) (curve : Curve Rat) : Prop where
  corners : curve.corners = times.tail
  choices : curve.choices = times.length - 1

/-- A curve through points, each later than the one before, leaves none of them out. -/
theorem turnsAt_piecewise (valuePlaces slopePlaces : Int) {points : List (Rat × Rat)}
    (increasing : (points.map (·.1)).IsChain (· < ·)) :
    TurnsAt (points.map (·.1)) (piecewise valuePlaces slopePlaces points) := by
  induction points with
  | nil => exact ⟨corners_num .., by simp [piecewise, choices]⟩
  | cons point rest ih =>
    cases rest with
    | nil => exact ⟨corners_num .., by simp [piecewise, choices]⟩
    | cons next rest =>
      simp only [List.map_cons, List.isChain_cons_cons] at increasing
      obtain ⟨later, rises⟩ := increasing
      obtain ⟨corners, choices⟩ := ih rises
      have kept : ¬ next.1 ≤ point.1 := later.not_ge
      constructor
      · rw [piecewise, if_neg kept, corners_ifBefore, corners]
        rfl
      · rw [piecewise, if_neg kept, choices_ifBefore, choices_line, choices]
        simp

end Curve

namespace Timeline

theorem frameCount_eq_ceil (duration : Rat) (fps : Int) :
    frameCount duration fps = .ok ⌈duration * fps⌉.toNat := by
  have counted := Exact.ceil_ofRat (duration * fps)
  unfold frameCount
  change (Exact.ofRat (duration * fps)).ceil.map Int.toNat = _
  rw [counted]
  rfl

theorem moment_nonneg {fps : Int} (positive : 0 < fps) (number : Nat) :
    (0 : Rat) ≤ moment fps number := by
  have rate : (0 : Rat) < fps := by exact_mod_cast positive
  have nonneg : (0 : Rat) ≤ (number : Int) := by exact_mod_cast Nat.zero_le number
  exact div_nonneg nonneg rate.le

theorem moment_lt_duration {duration : Rat} {fps : Int} (positive : 0 < fps) {number : Nat}
    (inside : number < ⌈duration * fps⌉.toNat) : moment fps number < duration := by
  have rate : (0 : Rat) < fps := by exact_mod_cast positive
  have below : (number : Int) < ⌈duration * fps⌉ := by omega
  change ((number : Int) : Rat) / fps < duration
  rw [div_lt_iff₀ rate]
  exact Int.lt_ceil.mp below

def keyNumbers (interval : Int) (count : Nat) : List Nat :=
  (List.range count).filter fun number =>
    number % (max 1 interval).toNat == 0 || number + 1 == count

theorem keyframes_map_range {β : Type} (interval : Int) (count : Nat) (frame : Nat → β) :
    keyframes interval ((List.range count).map frame) =
      (keyNumbers interval count).map frame := by
  have numbered : ((List.range count).map frame).zipIdx =
      (List.range count).map fun number => (frame number, number) := by
    apply List.ext_getElem
    · simp
    · intro number _ _
      simp
  simp only [keyframes, numbered, keyNumbers, List.filter_map, List.map_map, List.length_map,
    List.length_range]
  rfl

variable {interval : Int} {count : Nat}

theorem mem_keyNumbers {number : Nat} : number ∈ keyNumbers interval count ↔
    number < count ∧ (max 1 interval ∣ (number : Int) ∨ number + 1 = count) := by
  have step : ((max 1 interval).toNat : Int) = max 1 interval := by omega
  rw [keyNumbers, List.mem_filter, List.mem_range, Bool.or_eq_true, beq_iff_eq, beq_iff_eq,
    ← Nat.dvd_iff_mod_eq_zero, ← Int.natCast_dvd_natCast, step]

theorem pairwise_keyNumbers : (keyNumbers interval count).Pairwise (· < ·) :=
  List.pairwise_lt_range.filter _

theorem isChain_of_pairwise_lt {numbers : List Nat} (increasing : numbers.Pairwise (· < ·)) :
    numbers.IsChain fun a b => a < b ∧ ∀ n ∈ numbers, a < n → b ≤ n := by
  rw [List.isChain_iff_getElem]
  intro place inside
  have rises := List.pairwise_iff_getElem.mp increasing
  refine ⟨rises _ _ _ _ (Nat.lt_succ_self place), ?_⟩
  intro n member above
  obtain ⟨other, within, rfl⟩ := List.getElem_of_mem member
  rcases Nat.lt_trichotomy other (place + 1) with before | rfl | behind
  · rcases (Nat.lt_succ_iff.mp before).lt_or_eq with earlier | rfl
    · exact absurd (rises _ _ within (by omega) earlier) above.not_gt
    · exact absurd above (lt_irrefl _)
  · exact le_rfl
  · exact (rises _ _ inside within behind).le

/-- From a key frame to the next it is no more than a step: the next multiple of the step would be
a key frame between them. -/
theorem isChain_keyNumbers : (keyNumbers interval count).IsChain fun a b : Nat =>
    a < b ∧ (b : Int) ≤ a + max 1 interval := by
  refine List.IsChain.imp_of_mem_imp ?_ (isChain_of_pairwise_lt pairwise_keyNumbers)
  rintro a b - hasB ⟨less, next⟩
  refine ⟨less, ?_⟩
  by_contra far
  obtain ⟨below, -⟩ := mem_keyNumbers.mp hasB
  have positive : 0 < max 1 interval := by omega
  have parts := Int.mul_ediv_add_emod a (max 1 interval)
  have rest := Int.emod_lt_of_pos (a : Int) positive
  have restNonneg := Int.emod_nonneg (a : Int) positive.ne'
  obtain ⟨multiple, isMultiple⟩ := Int.eq_ofNat_of_zero_le
    (by omega : (0 : Int) ≤ a - a % max 1 interval + max 1 interval)
  have divides : max 1 interval ∣ (multiple : Int) := by
    rw [← isMultiple]
    exact ⟨a / max 1 interval + 1, by rw [mul_add, mul_one]; omega⟩
  have between := next multiple (mem_keyNumbers.mpr ⟨by omega, .inl divides⟩) (by omega)
  omega

theorem isChain_keyframes (commands : List (Command Rat)) (track : Track Rat) {fps : Int}
    (positive : 0 < fps) (initial : Settled Rat) (interval : Int) (count : Nat) :
    ((keyNumbers interval count).map (frameAt commands track fps initial)).IsChain fun a b =>
      a.time < b.time ∧ b.time - a.time ≤ ((max 1 interval : Int) : Rat) / fps := by
  have rate : (0 : Rat) < fps := by exact_mod_cast positive
  rw [List.isChain_map]
  refine isChain_keyNumbers.imp ?_
  rintro a b ⟨less, near⟩
  rw [frameAt_time, frameAt_time]
  change ((a : Int) : Rat) / fps < ((b : Int) : Rat) / fps ∧
    ((b : Int) : Rat) / fps - ((a : Int) : Rat) / fps ≤ _
  rw [← sub_div]
  constructor
  · exact div_lt_div_of_pos_right (by exact_mod_cast less) rate
  · refine div_le_div_of_nonneg_right ?_ rate.le
    rw [sub_le_iff_le_add']
    exact_mod_cast near

theorem turnsAt_curve {frames : List (Frame Rat)}
    (increasing : (frames.map (·.time)).IsChain (· < ·)) (quantity : Frame Rat → Rat) :
    (curve quantity frames).TurnsAt (frames.map (·.time)) := by
  have times : (frames.map fun frame => (frame.time, quantity frame)).map (·.1) =
      frames.map (·.time) := by
    rw [List.map_map]
    rfl
  rw [← times] at increasing ⊢
  exact Curve.turnsAt_piecewise 1 2 increasing

theorem stops_of_legs {frames : List (Frame Rat)}
    (increasing : (frames.map (·.time)).IsChain (· < ·)) {told : List (Leg Rat)}
    (walked : legs frames = .ok told) : told.map (·.stop) = (frames.map (·.time)).tail := by
  fun_induction legs frames generalizing told with
  | case1 frame next rest ih =>
    simp only [List.map_cons, List.isChain_cons_cons] at increasing
    obtain ⟨later, rises⟩ := increasing
    obtain ⟨others, walkedOthers, walked⟩ := bind_eq_ok_iff.mp walked
    rw [if_neg later.not_ge] at walked
    obtain ⟨rise, -, walked⟩ := bind_eq_ok_iff.mp walked
    cases walked
    rw [List.map_cons, ih rises walkedOthers]
    rfl
  | case2 frames short =>
    cases walked
    cases frames with
    | nil => rfl
    | cons first later =>
      cases later with
      | nil => rfl
      | cons next rest => exact absurd rfl (short first next rest)

theorem turns_of_along {told : List (Leg Rat)} {last : Zoom Rat} {level : Curve Rat}
    (drawn : along told last = .ok level) :
    level.corners = told.map (·.stop) ∧ level.choices = told.length := by
  induction told generalizing level with
  | nil =>
    rw [along] at drawn
    cases number : last.toNumber with
    | error failure =>
      rw [number] at drawn
      cases drawn
    | ok value =>
      rw [number] at drawn
      cases drawn
      exact ⟨Curve.corners_num .., by simp [Curve.choices]⟩
  | cons leg rest ih =>
    obtain ⟨value, -, drawn⟩ := bind_eq_ok_iff.mp drawn
    obtain ⟨later, drawnLater, drawn⟩ := bind_eq_ok_iff.mp drawn
    cases drawn
    obtain ⟨corners, choices⟩ := ih drawnLater
    constructor
    · rw [Curve.corners_ifBefore, corners]
      rfl
    · rw [Curve.choices_ifBefore, Curve.choices_line, choices, List.length_cons, Nat.zero_add]

theorem turnsAt_zoomCurve {frames : List (Frame Rat)}
    (increasing : (frames.map (·.time)).IsChain (· < ·)) {level : Curve Rat}
    (zoomed : zoomCurve frames = .ok level) : level.TurnsAt (frames.map (·.time)) := by
  unfold zoomCurve at zoomed
  cases ends : frames.getLast? with
  | none =>
    cases List.getLast?_eq_none_iff.mp ends
    cases zoomed
    exact ⟨Curve.corners_num .., by simp [Curve.choices]⟩
  | some last =>
    simp only [ends] at zoomed
    obtain ⟨told, walked, drawn⟩ := bind_eq_ok_iff.mp zoomed
    have stops := stops_of_legs increasing walked
    obtain ⟨corners, choices⟩ := turns_of_along drawn
    refine ⟨corners.trans stops, ?_⟩
    rw [choices, ← List.length_map (f := Leg.stop), stops, List.length_tail]

/-- Every key frame of a timeline comes into its curves: there is a frame for every begun part of
the video's seconds, every frame with a multiple of the step and the last one are key frames, and
the curves turn at every key frame behind the first. -/
theorem build_keyframes_drawn (commands : List (Command Rat)) (track : Track Rat) (duration : Rat)
    {fps : Int} (positive : 0 < fps) (resolution : Int × Int) (interval : Int) :
    ∃ frames, build commands track duration fps resolution = .ok frames ∧
      (frames.length : Int) = max 0 ⌈duration * fps⌉ ∧
      (∀ (number : Nat) (frame : Frame Rat), frames[number]? = some frame →
        frame.time = number / fps ∧ 0 ≤ frame.time ∧ frame.time < duration) ∧
      let step := max 1 interval
      let keys := keyframes interval frames
      (∃ numbers : List Nat, numbers.Pairwise (· < ·) ∧
        (∀ n : Nat, n ∈ numbers ↔
          n < frames.length ∧ (step ∣ (n : Int) ∨ n + 1 = frames.length)) ∧
        keys.map some = numbers.map (frames[·]?)) ∧
      keys.IsChain (fun a b => a.time < b.time ∧ b.time - a.time ≤ (step : Rat) / fps) ∧
      (curve (·.center.x) keys).TurnsAt (keys.map (·.time)) ∧
      (curve (·.center.y) keys).TurnsAt (keys.map (·.time)) ∧
      (∀ level, zoomCurve keys = .ok level → level.TurnsAt (keys.map (·.time))) ∧
      ((∀ zoom ∈ Command.followZooms commands, ∃ level, zoom.toNumber = .ok level) →
        ∃ level crop, zoomCurve keys = .ok level ∧
        Crop.ofTimeline frames resolution.1 resolution.2 interval = .ok crop ∧
        crop.zoom = .maximum (.num 1 0) level ∧
        crop.left = Crop.edge (curve (·.center.x) keys) crop.cropWidth (.num resolution.1 0) ∧
        crop.top = Crop.edge (curve (·.center.y) keys) crop.cropHeight (.num resolution.2 0)) := by
  let count := ⌈duration * fps⌉.toNat
  let shown := frameAt (Command.sortByStart commands) track fps
    (Settled.initial resolution.1 resolution.2)
  have built : build commands track duration fps resolution = .ok ((List.range count).map shown) :=
    build_eq_ok_iff.mpr ⟨count, frameCount_eq_ceil duration fps, rfl⟩
  have length : ((List.range count).map shown).length = count := by
    rw [List.length_map, List.length_range]
  have found (number : Nat) (inside : number < count) :
      ((List.range count).map shown)[number]? = some (shown number) := by
    rw [List.getElem?_map, List.getElem?_range inside, Option.map_some]
  have isKeys := keyframes_map_range interval count shown
  have spaced := isChain_keyframes (Command.sortByStart commands) track positive
    (Settled.initial resolution.1 resolution.2) interval count
  rw [← keyframes_map_range] at spaced
  have increasing : ((keyframes interval ((List.range count).map shown)).map (·.time)).IsChain
      (· < ·) := by
    rw [List.isChain_map]
    exact spaced.imp fun _ _ both => both.1
  refine ⟨_, built, ?_, ?_, ?_, spaced, turnsAt_curve increasing _, turnsAt_curve increasing _,
    fun level zoomed => turnsAt_zoomCurve increasing zoomed, ?_⟩
  · rw [length, Int.toNat_eq_max, max_comm]
  · intro number frame isFrame
    obtain ⟨inside, -⟩ := List.getElem?_eq_some_iff.mp isFrame
    rw [length] at inside
    rw [found number inside, Option.some.injEq] at isFrame
    rw [← isFrame, frameAt_time]
    exact ⟨rfl, moment_nonneg positive number, moment_lt_duration positive inside⟩
  · refine ⟨keyNumbers interval count, pairwise_keyNumbers, fun n => ?_, ?_⟩
    · rw [length]
      exact mem_keyNumbers
    · rw [isKeys, List.map_map]
      exact List.map_congr_left fun number member =>
        (found number (mem_keyNumbers.mp member).1).symm
  · intro sets
    have numbers : ∀ frame ∈ keyframes interval ((List.range count).map shown),
        ∃ level, frame.zoom.toNumber = .ok level := by
      intro frame member
      have inFrames := List.mem_map_of_mem (f := (·.zoom)) (Crop.mem_of_mem_keyframes member)
      obtain ⟨value, isLevel⟩ | declared := isFrom_of_build built frame.zoom inFrames
      · exact ⟨value, isLevel ▸ rfl⟩
      · exact sets frame.zoom declared
    have zoomed := zoomCurve_eq numbers
    exact ⟨_, _, zoomed, Crop.ofTimeline_of_zoomCurve zoomed, rfl, rfl, rfl⟩

/-- Seven frames with a step of four, which leaves the last of them between two multiples. -/
theorem build_keyframes_drawn_between_steps :
    let commands : List (Command Rat) :=
      [.zoom 2 (1 / 2) 1 .mouse, .follow 0 1 (.level 3), .pan (.point ⟨0, 0⟩) 1 1]
    (0 : Int) < 4 ∧ (∀ zoom ∈ Command.followZooms commands, ∃ level, zoom.toNumber = .ok level) ∧
      ∃ frames level, build commands [] (5 / 3) 4 (1920, 1080) = .ok frames ∧
        frames.length = 7 ∧
        (keyframes 4 frames).map some = [0, 4, 6].map (frames[·]?) ∧
        zoomCurve (keyframes 4 frames) = .ok level ∧
        level.TurnsAt ((keyframes 4 frames).map (·.time)) := by
  intro commands
  have sets : ∀ zoom ∈ Command.followZooms commands, ∃ level, zoom.toNumber = .ok level := by
    simp [commands, Command.followZooms, Command.followZoom?, FollowZoom.set?, Zoom.toNumber]
  refine ⟨by decide, sets, ?_⟩
  obtain ⟨frames, built, length, -, ⟨numbers, increasing, member, isKeys⟩, -, -, -, turns, made⟩ :=
    build_keyframes_drawn commands [] (5 / 3) (by decide : (0 : Int) < 4) (1920, 1080) 4
  obtain ⟨level, -, zoomed, -⟩ := made sets
  have count : ⌈(5 / 3 : Rat) * (4 : Int)⌉ = 7 := by
    rw [Int.ceil_eq_iff]
    norm_num
  have seven : frames.length = 7 := by
    rw [count] at length
    omega
  have same : numbers = [0, 4, 6] := by
    refine List.Pairwise.eq_of_mem_iff increasing (by decide) fun n => ?_
    rw [member, seven, show max (1 : Int) 4 = 4 from rfl]
    simp only [List.mem_cons, List.not_mem_nil, or_false]
    omega
  exact ⟨frames, level, built, seven, same ▸ isKeys, zoomed, turns level zoomed⟩

end Timeline

end Screencast
