import Screencast.Proofs.Number.Machine
import Screencast.Proofs.Viewport.Center
import Screencast.Viewport.Config

/-!
Commands written out as items of a scene, every field of them with its value, and read again. Each
comes back as it was, unless it declares a length or an end of nought, which is read as if it were
not declared at all.
-/

namespace Screencast

namespace Target

def toJson : Target Float → Json
  | mouse => .string "mouse"
  | point place => .object [("x", .float place.x), ("y", .float place.y)]

theorem ofJson_toJson (target : Target Float) : ofJson target.toJson = .ok target := by
  cases target <;> rfl

theorem truthy_toJson (target : Target Float) : target.toJson.truthy = true := by
  cases target <;> rfl

end Target

namespace FollowZoom

def toJson : FollowZoom Float → Json
  | unset => .null
  | level value => .float value
  | whole n => .int n
  | other value => value

def isPlain {α : Type} : FollowZoom α → Bool
  | unset | level _ | whole _ => true
  | other _ => false

theorem ofJson_toJson {zoom : FollowZoom Float} (plain : zoom.isPlain = true) :
    ofJson zoom.toJson = zoom := by
  cases zoom with
  | unset => rfl
  | level value => rfl
  | whole n => rfl
  | other value => cases plain

end FollowZoom

namespace Command

def toJson : Command Float → Json
  | follow start stop level => .object
    [("follow", .string "mouse"), ("from", .float start), ("to", .float stop),
      ("zoom", level.toJson)]
  | zoom level start duration center => .object
    [("zoom", .float level), ("at", .float start), ("duration", .float duration),
      ("center", center.toJson)]
  | pan goal start duration => .object
    [("pan", goal.toJson), ("at", .float start), ("duration", .float duration)]
  | hold start stop => .object
    [("hold", .bool true), ("from", .float start), ("to", .float stop)]

def sceneOf (commands : List (Command Float)) : Json :=
  .object [("viewport", .array (commands.map toJson))]

section Reading

variable {α : Type} [Number α]

/-- What a number is read as where another is taken for want of one. -/
def orNought (default x : α) : α := if x == Number.ofInt 0 then default else x

def reread : Command α → Command α
  | follow start stop level =>
    follow (orNought (Number.ofInt 0) start) (orNought followEnd stop) level
  | zoom level start duration center =>
    zoom level (orNought (Number.ofInt 0) start) (orNought transition duration) center
  | pan goal start duration =>
    pan goal (orNought (Number.ofInt 0) start) (orNought transition duration)
  | hold start stop => hold (orNought (Number.ofInt 0) start) (orNought (Number.ofInt 0) stop)

/-- Whether no time is nought that stands for a default if it is. -/
def lasts : Command α → Bool
  | follow _ stop _ => !(stop == Number.ofInt 0)
  | zoom _ _ duration _ | pan _ _ duration => !(duration == Number.ofInt 0)
  | hold .. => true

def isPlain : Command α → Bool
  | follow _ _ level => level.isPlain
  | _ => true

end Reading

end Command

section Same

variable {α : Type} [Number α]

def Target.same : Target α → Target α → Bool
  | mouse, mouse => true
  | point place, point other => place.same other
  | _, _ => false

def FollowZoom.same : FollowZoom α → FollowZoom α → Bool
  | unset, unset => true
  | level value, level shown => Number.same value shown
  | whole n, whole shown => n == shown
  | other value, other json => value == json
  | _, _ => false

def Command.same : Command α → Command α → Bool
  | follow start stop level, follow start' stop' level' =>
    Number.same start start' && Number.same stop stop' && level.same level'
  | zoom level start duration center, zoom level' start' duration' center' =>
    Number.same level level' && Number.same start start' && Number.same duration duration' &&
      center.same center'
  | pan goal start duration, pan goal' start' duration' =>
    goal.same goal' && Number.same start start' && Number.same duration duration'
  | hold start stop, hold start' stop' => Number.same start start' && Number.same stop stop'
  | _, _ => false

theorem Target.same_self (target : Target α) : target.same target = true := by
  cases target with
  | mouse => rfl
  | point place => exact place.same_self

theorem FollowZoom.same_self {zoom : FollowZoom α} (plain : zoom.isPlain = true) :
    zoom.same zoom = true := by
  cases zoom with
  | unset => rfl
  | level value => exact Number.same_self value
  | whole n => exact beq_self_eq_true n
  | other value => cases plain

end Same

namespace Command

theorem numberOr_float {item : Json} {key : String} {x : Float}
    (declared : item.memberOrNull key = .ok (.float x)) (default : Float) :
    numberOr default key item = .ok (orNought default x) := by
  have nought : (0.0 : Float) = Number.ofInt 0 := rfl
  simp only [numberOr, declared, bind, Except.bind, Json.truthy, orNought, nought]
  cases x == Number.ofInt 0 <;> rfl

theorem ofJson?_of_follow {item : Json}
    (follows : item.memberOrNull "follow" = .ok (.string "mouse")) :
    (ofJson? item : Except Failure (Option (Command Float))) = (followOf item).map some := by
  simp only [ofJson?, follows, bind, Except.bind, isMouse, if_true]
  cases followOf (α := Float) item <;> rfl

theorem ofJson?_of_zoom {item level : Json} (follows : item.memberOrNull "follow" = .ok .null)
    (declared : item.memberOrNull "zoom" = .ok level) (present : level ≠ .null) :
    (ofJson? item : Except Failure (Option (Command Float))) = (zoomOf level item).map some := by
  simp only [ofJson?, follows, declared, bind, Except.bind, isMouse, Bool.false_eq_true, if_false]
  cases level with
  | null => exact absurd rfl present
  | _ => cases zoomOf (α := Float) _ item <;> rfl

theorem ofJson?_of_pan {item goal : Json} (follows : item.memberOrNull "follow" = .ok .null)
    (zooms : item.memberOrNull "zoom" = .ok .null) (declared : item.memberOrNull "pan" = .ok goal)
    (present : goal.truthy = true) :
    (ofJson? item : Except Failure (Option (Command Float))) = (panOf goal item).map some := by
  simp only [ofJson?, follows, zooms, declared, present, bind, Except.bind, isMouse,
    Bool.false_eq_true, if_false, if_true]
  cases panOf (α := Float) goal item <;> rfl

theorem ofJson?_of_hold {item : Json} (follows : item.memberOrNull "follow" = .ok .null)
    (zooms : item.memberOrNull "zoom" = .ok .null) (pans : item.memberOrNull "pan" = .ok .null)
    (holds : item.memberOrNull "hold" = .ok (.bool true)) :
    (ofJson? item : Except Failure (Option (Command Float))) = (holdOf item).map some := by
  simp only [ofJson?, follows, zooms, pans, holds, bind, Except.bind, isMouse, Json.truthy,
    Bool.false_eq_true, if_false, if_true]
  cases holdOf (α := Float) item <;> rfl

theorem ofJson?_toJson {command : Command Float} (plain : command.isPlain = true) :
    ofJson? command.toJson = .ok (some command.reread) := by
  cases command with
  | follow start stop level =>
    let item := (follow start stop level).toJson
    have first : item.memberOrNull "from" = .ok (.float start) := rfl
    have last : item.memberOrNull "to" = .ok (.float stop) := rfl
    have shown : item.memberOrNull "zoom" = .ok level.toJson := rfl
    have made : followOf item = .ok (follow start stop level).reread := by
      simp only [followOf, numberOr_float first, numberOr_float last, shown, bind, Except.bind,
        FollowZoom.ofJson_toJson plain]
      rfl
    exact (ofJson?_of_follow rfl).trans (congrArg (Except.map some) made)
  | zoom level start duration center =>
    let item := (zoom level start duration center).toJson
    have first : item.memberOrNull "at" = .ok (.float start) := rfl
    have length : item.memberOrNull "duration" = .ok (.float duration) := rfl
    have leveled : item.memberOrNull "zoom" = .ok (.float level) := rfl
    have centered : item.memberOrNull "center" = .ok center.toJson := rfl
    have made : zoomOf (.float level) item = .ok (zoom level start duration center).reread := by
      simp only [zoomOf, Json.toFloat, numberOr_float first, numberOr_float length, centered,
        Target.ofJson_toJson, bind, Except.bind]
      rfl
    exact (ofJson?_of_zoom rfl leveled nofun).trans (congrArg (Except.map some) made)
  | pan goal start duration =>
    let item := (pan goal start duration).toJson
    have first : item.memberOrNull "at" = .ok (.float start) := rfl
    have length : item.memberOrNull "duration" = .ok (.float duration) := rfl
    have made : panOf goal.toJson item = .ok (pan goal start duration).reread := by
      simp only [panOf, Target.ofJson_toJson, numberOr_float first, numberOr_float length, bind,
        Except.bind]
      rfl
    exact (ofJson?_of_pan rfl rfl rfl goal.truthy_toJson).trans (congrArg (Except.map some) made)
  | hold start stop =>
    let item := (hold start stop).toJson
    have first : item.memberOrNull "from" = .ok (.float start) := rfl
    have last : item.memberOrNull "to" = .ok (.float stop) := rfl
    have made : holdOf item = .ok (hold start stop).reread := by
      simp only [holdOf, numberOr_float first, numberOr_float last, bind, Except.bind]
      rfl
    exact (ofJson?_of_hold rfl rfl rfl rfl).trans (congrArg (Except.map some) made)

theorem mapM_ofJson?_toJson {commands : List (Command Float)}
    (plain : ∀ command ∈ commands, command.isPlain = true) :
    (commands.map toJson).mapM ofJson? = .ok (commands.map fun command => some command.reread) := by
  induction commands with
  | nil => rfl
  | cons command rest ih =>
    obtain ⟨first, others⟩ := List.forall_mem_cons.mp plain
    rw [List.map_cons, List.mapM_cons, ofJson?_toJson first, ih others]
    rfl

theorem listOfJson_sceneOf {commands : List (Command Float)}
    (plain : ∀ command ∈ commands, command.isPlain = true) :
    listOfJson (sceneOf commands) = .ok (commands.map reread) := by
  have declared : (sceneOf commands).memberOrNull "viewport" = .ok (.array (commands.map toJson)) :=
    rfl
  have truthy : (sceneOf commands).truthy = true := rfl
  cases commands with
  | nil => rfl
  | cons command rest =>
    have some_item : (Json.array ((command :: rest).map toJson)).truthy = true := rfl
    have read := mapM_ofJson?_toJson plain
    have kept : ((command :: rest).map fun item => some item.reread).filterMap id =
        (command :: rest).map reread := by
      rw [List.filterMap_map]
      exact congrFun List.filterMap_eq_map _
    simp only [listOfJson, declared, truthy, some_item, Json.elements, read, kept, bind,
      Except.bind]
    rfl

section Same

theorem same_orNought_zero {α : Type} [Number α] (x : α) :
    Number.same x (orNought (Number.ofInt 0) x) = true := by
  unfold orNought
  split
  · next nought => rw [Number.same, nought, Bool.true_or]
  · exact Number.same_self x

theorem same_orNought_of_pos {default : Float} (positive : Number.ofInt 0 < default) (x : Float) :
    Number.same x (orNought default x) = !(x == Number.ofInt 0) := by
  unfold orNought
  by_cases nought : (x == Number.ofInt 0) = true
  · obtain ⟨b, valueDefault, above⟩ := Machine.pos_iff.mp positive
    obtain ⟨a, valueX, valueZero⟩ := Machine.beq_iff.mp nought
    cases Machine.value_zero.symm.trans valueZero
    have self : (x == x) = true := Machine.beq_iff.mpr ⟨0, valueX, valueX⟩
    have differs : (x == default) = false := by
      refine Bool.eq_false_iff.mpr fun same => ?_
      obtain ⟨c, valueX', valueDefault'⟩ := Machine.beq_iff.mp same
      cases valueX.symm.trans valueX'
      cases valueDefault.symm.trans valueDefault'
      exact lt_irrefl _ above
    rw [if_pos nought, nought, Number.same, differs, self]
    rfl
  · rw [if_neg nought, Number.same_self, Bool.eq_false_of_not_eq_true nought]
    rfl

theorem followEnd_pos : Number.ofInt 0 < (followEnd : Float) := by
  have positive : (0 : Int) < 999 := by decide
  unfold followEnd
  exact LawfulNumber.ofInt_pos positive

theorem transition_pos : Number.ofInt 0 < (transition : Float) :=
  Machine.pos_iff.mpr ⟨_, Machine.value_half, by norm_num⟩

theorem same_reread {command : Command Float} (plain : command.isPlain = true) :
    command.same command.reread = command.lasts := by
  cases command with
  | follow start stop level =>
    simp only [reread, same, lasts, same_orNought_zero, same_orNought_of_pos followEnd_pos,
      FollowZoom.same_self plain, Bool.true_and, Bool.and_true]
  | zoom level start duration center =>
    simp only [reread, same, lasts, Number.same_self, same_orNought_zero,
      same_orNought_of_pos transition_pos, center.same_self, Bool.true_and, Bool.and_true]
  | pan goal start duration =>
    simp only [reread, same, lasts, goal.same_self, same_orNought_zero,
      same_orNought_of_pos transition_pos, Bool.true_and]
  | hold start stop =>
    simp only [reread, same, lasts, same_orNought_zero, Bool.and_self]

end Same

/-- Commands that are written out and read come back one by one, each as it was just if it has no
length of nought and, as a follow, does not end at nought. -/
theorem sceneOf_read_back {commands : List (Command Float)}
    (plain : ∀ command ∈ commands, command.isPlain = true) :
    listOfJson (sceneOf commands) = .ok (commands.map reread) ∧
      ∀ command ∈ commands, command.same command.reread = command.lasts :=
  ⟨listOfJson_sceneOf plain, fun command member => same_reread (plain command member)⟩

/-- Commands of each kind, with starts and a hold's end of nought among them. -/
theorem sceneOf_read_back_each_kind :
    let commands : List (Command Float) := [.follow 0 5 .unset, .follow 1 2 (.level 0),
      .follow 2 3 (.whole 2), .zoom 2 0 1 (.point ⟨0, 3⟩), .pan .mouse 0 2, .hold 0 0]
    ∃ read, listOfJson (sceneOf commands) = .ok read ∧
      List.Forall₂ (fun command back => command.same back = true) commands read := by
  intro commands
  have plain : ∀ command ∈ commands, command.isPlain = true := by
    simp [commands, isPlain, FollowZoom.isPlain]
  have lasting : ∀ command ∈ commands, command.lasts = true := by
    simp only [commands, List.forall_mem_cons]
    exact ⟨by decide, by decide, by decide, by decide, by decide, rfl, nofun⟩
  obtain ⟨read, unchanged⟩ := sceneOf_read_back plain
  refine ⟨_, read, List.forall₂_map_right_iff.mpr (List.forall₂_same.mpr fun command member => ?_)⟩
  rw [unchanged command member]
  exact lasting command member

/-- A pan that is to be over at once takes half a second when it is read. -/
theorem pan_at_once_delayed :
    let command : Command Float := .pan .mouse 1 0
    let back : Command Float := .pan .mouse 1 Number.half
    listOfJson (sceneOf [command]) = .ok [back] ∧ command.same back = false := by
  intro command back
  have plain : command.isPlain = true := rfl
  have read : command.reread = back := by
    have starts : ((1 : Float) == Number.ofInt 0) = false := by decide
    have lasts : ((0 : Float) == Number.ofInt 0) = true := by decide
    simp only [command, reread, orNought, starts, lasts, if_true, Bool.false_eq_true, if_false]
    rfl
  constructor
  · rw [listOfJson_sceneOf (List.forall_mem_singleton.mpr plain), List.map_singleton, read]
  · rw [← read, same_reread plain]
    decide

end Command

end Screencast
