import Screencast.Proofs.Media.Asking

/-!
What is remembered of media files. A file is looked at when it is asked about for the first time
since it was forgotten; from then on each answer is that of the last look. Whatever is asked about
other files, the looks at a file and the answers about it stay the same.
-/

namespace Screencast

variable {α β γ : Type}

namespace Media

def asked? (call : Call) : Option String :=
  match call.command with
  | [] => none
  | _ :: arguments => if arguments.dropLast = probeArguments then arguments.getLast? else none

def missed? (record : Log.Record) : Option String :=
  match record.words with
  | [.text note] => if record.logger = Log.loggerName logger then some note else none
  | _ => none

/-- The looks at media files that a host shows: the files that the probe tool was started for, the
notes about those that were not there, and the names that were looked up in the catalogue. -/
structure Looks where
  asked : List String
  missed : List String
  lookedUp : List String
deriving DecidableEq

namespace Looks

def on (host : Host α) : Looks where
  asked := host.calls.filterMap asked?
  missed := host.records.filterMap missed?
  lookedUp := host.looked

def count (looks : Looks) : Nat :=
  looks.asked.length + looks.missed.length + looks.lookedUp.length

instance : Append Looks where
  append looks later :=
    ⟨looks.asked ++ later.asked, looks.missed ++ later.missed, looks.lookedUp ++ later.lookedUp⟩

theorem append_eq (looks later : Looks) : looks ++ later =
    ⟨looks.asked ++ later.asked, looks.missed ++ later.missed, looks.lookedUp ++ later.lookedUp⟩ :=
  rfl

theorem append_nil (looks : Looks) : looks ++ (⟨[], [], []⟩ : Looks) = looks := by
  simp only [append_eq, List.append_nil]

theorem count_append (looks later : Looks) :
    (looks ++ later).count = looks.count + later.count := by
  simp only [append_eq, count, List.length_append]
  omega

theorem filterMap_concat (f : β → Option γ) (items : List β) (item : β) :
    (items ++ [item]).filterMap f = items.filterMap f ++ (f item).toList := by
  rw [List.filterMap_append]
  cases made : f item <;> simp [made]

theorem on_log (level : Log.Level) (logger : String) (words : List Log.Word) (host : Host α) :
    on ((Host.log level logger words).run host).2 = on host ++
      ⟨[], (missed? ⟨level, Log.loggerName logger, words⟩).toList, []⟩ := by
  rw [append_eq, List.append_nil, List.append_nil]
  exact congrArg (Looks.mk _ · _) (filterMap_concat _ _ _)

theorem on_start (command : List String) (timeout : Json) (host : Host α) :
    on ((Host.start command timeout).run host).2 = on host ++
      ⟨(asked? ⟨command, timeout⟩).toList, [], []⟩ := by
  rw [append_eq, List.append_nil, List.append_nil]
  exact congrArg (Looks.mk · _ _) (filterMap_concat _ _ _)

/-- One look at a file, as it shows on a host. -/
def one (path : Path) (host : Host α) : Looks :=
  match host.facts with
  | .catalogue _ => ⟨[], [], [path.name]⟩
  | .tool => if host.disk.has path then ⟨[path.toString], [], []⟩ else ⟨[], [notFound path], []⟩

theorem count_one (path : Path) (host : Host α) : (one path host).count = 1 := by
  unfold one
  split
  · rfl
  · split <;> rfl

end Looks

end Media

namespace Job

/-- Whether a job comes to the same on a host that is changed in this way, and leaves the change. -/
def Ignores (change : Host α → Host α) (job : Job α β) : Prop :=
  ∀ host, job.result (change host) = job.result host ∧
    job.after (change host) = change (job.after host)

@[simp] theorem result_pure (value : β) (host : Host α) :
    (pure value : Job α β).result host = .ok value := rfl

@[simp] theorem after_pure (value : β) (host : Host α) :
    (pure value : Job α β).after host = host := rfl

@[simp] theorem result_ofAct (act : Act α β) (host : Host α) :
    (ofAct act).result host = .ok (act.run host).1 := rfl

@[simp] theorem after_ofAct (act : Act α β) (host : Host α) :
    (ofAct act).after host = (act.run host).2 := rfl

theorem result_get_bind (next : Host α → Job α β) (host : Host α) :
    (get >>= next).result host = (next host).result host := rfl

theorem after_get_bind (next : Host α → Job α β) (host : Host α) :
    (get >>= next).after host = (next host).after host := rfl

theorem ok_bind (value : β) (next : β → Job α γ) :
    (liftM (Except.ok value : Except Failure β) >>= next : Job α γ) = next value := rfl

theorem result_bind (first : Job α β) (next : β → Job α γ) (host : Host α) :
    (first >>= next).result host = match first.result host with
      | .ok value => (next value).result (first.after host)
      | .error failure => .error failure := by
  unfold result after
  rw [ExceptT.run_bind, StateT.run_bind]
  rcases first.run.run host with ⟨failure | value, between⟩ <;> rfl

theorem after_bind (first : Job α β) (next : β → Job α γ) (host : Host α) :
    (first >>= next).after host = match first.result host with
      | .ok value => (next value).after (first.after host)
      | .error _ => first.after host := by
  unfold result after
  rw [ExceptT.run_bind, StateT.run_bind]
  rcases first.run.run host with ⟨failure | value, between⟩ <;> rfl

namespace Ignores

variable {change : Host α → Host α}

theorem of_pure (value : β) : Ignores change (pure value) := fun _ => ⟨rfl, rfl⟩

theorem of_throw (failure : Failure) : Ignores change (throw failure : Job α β) :=
  fun _ => ⟨rfl, rfl⟩

theorem of_except (result : Except Failure β) :
    Ignores change (liftM result : Job α β) := by
  cases result with
  | ok value => exact of_pure value
  | error failure => exact of_throw failure

theorem of_bind {first : Job α β} {next : β → Job α γ} (ignores : first.Ignores change)
    (rest : ∀ value, (next value).Ignores change) : (first >>= next).Ignores change := by
  intro host
  obtain ⟨same, between⟩ := ignores host
  rw [result_bind, result_bind, after_bind, after_bind, same, between]
  cases first.result host with
  | error failure => exact ⟨rfl, rfl⟩
  | ok value => exact rest value _

theorem of_get {next : Host α → Job α β} (same : ∀ host, next (change host) = next host)
    (rest : ∀ host, (next host).Ignores change) : (get >>= next).Ignores change := by
  intro host
  rw [result_get_bind, result_get_bind, after_get_bind, after_get_bind, same host]
  exact rest host host

end Ignores

end Job

namespace Media

inductive Request where
  | probe (path : Path)
  | forget (path : Path)
  | forgetAll

def Request.concerns (key : String) : Request → Bool
  | probe path | forget path => path.toString = key
  | forgetAll => true

/-- A request, with the host on which it is made but for what is known there by then. -/
structure Turn (α : Type) where
  request : Request
  host : Host α

inductive Entry (α : Type) where
  /-- An answer, and whether the host shows more looks than before. -/
  | answered (path : Path) (answer : Except Failure (MediaInfo α)) (looked : Bool)
  | forgot (path : Path)
  | forgotAll

namespace Entry

def request : Entry α → Request
  | answered path _ _ => .probe path
  | forgot path => .forget path
  | forgotAll => .forgetAll

def drops (key : String) : Entry α → Bool
  | answered .. => false
  | forgot path => path.toString = key
  | forgotAll => true

def look? (key : String) : Entry α → Option (Except Failure (MediaInfo α))
  | answered path answer true => if path.toString = key then some answer else none
  | _ => none

def told? (key : String) (entry : Entry α) : Option (MediaInfo α) :=
  entry.look? key >>= Except.toOption

def since (key : String) (entries : List (Entry α)) : List (Entry α) :=
  entries.reverse.takeWhile fun entry => !entry.drops key

def lastLook? (key : String) (entries : List (Entry α)) :
    Option (Except Failure (MediaInfo α)) :=
  entries.reverse.findSome? (look? key)

/-- Whether no look at a file has told anything since it was last forgotten. -/
def Fresh (key : String) (entries : List (Entry α)) : Prop :=
  ∀ entry ∈ since key entries, entry.told? key = none

theorem since_concat (key : String) (entries : List (Entry α)) (entry : Entry α) :
    since key (entries ++ [entry]) =
      if entry.drops key then [] else entry :: since key entries := by
  unfold since
  rw [List.reverse_concat, List.takeWhile_cons]
  cases entry.drops key <;> rfl

theorem lastLook?_concat (key : String) (entries : List (Entry α)) (entry : Entry α) :
    lastLook? key (entries ++ [entry]) = (entry.look? key).or (lastLook? key entries) := by
  unfold lastLook?
  rw [List.reverse_concat, List.findSome?_cons]
  cases entry.look? key <;> rfl

end Entry

/-- Whether what is known of a file is what was last told of it, if it was not forgotten since. -/
structure Reflects (key : String) (known : Table String (MediaInfo α))
    (entries : List (Entry α)) : Prop where
  find : known.find? key = (Entry.since key entries).findSome? (Entry.told? key)
  last : ∀ info, known.find? key = some info → Entry.lastLook? key entries = some (.ok info)

theorem reflects_nil (key : String) : Reflects key ([] : Table String (MediaInfo α)) [] :=
  ⟨rfl, nofun⟩

namespace Reflects

variable {key : String} {known after : Table String (MediaInfo α)} {entries : List (Entry α)}
  {entry : Entry α}

theorem fresh_iff (reflects : Reflects key known entries) :
    Entry.Fresh key entries ↔ known.find? key = none := by
  rw [reflects.find, List.findSome?_eq_none_iff]
  rfl

theorem of_other (reflects : Reflects key known entries) (keeps : entry.drops key = false)
    (other : entry.look? key = none) (same : after.find? key = known.find? key) :
    Reflects key after (entries ++ [entry]) := by
  constructor
  · rw [same, reflects.find, Entry.since_concat, keeps]
    simp [Entry.told?, other]
  · rw [same, Entry.lastLook?_concat, other]
    exact reflects.last

theorem of_drops (drops : entry.drops key = true) (unknown : after.find? key = none) :
    Reflects key after (entries ++ [entry]) := by
  constructor
  · rw [unknown, Entry.since_concat, drops]
    rfl
  · rw [unknown]
    rintro _ ⟨⟩

/-- A look that tells something is what is known from then on; one that fails tells nothing. -/
theorem of_look {path : Path} (reflects : Reflects path.toString known entries)
    (unknown : known.find? path.toString = none) (answer : Except Failure (MediaInfo α)) :
    Reflects path.toString
      (match answer with
        | .ok info => known.put path.toString info
        | .error _ => known)
      (entries ++ [.answered path answer true]) := by
  cases answer with
  | error failure =>
    constructor
    · simp [unknown, Entry.since_concat, Entry.drops, Entry.told?, Entry.look?, Except.toOption,
        ← reflects.find]
    · rw [unknown]
      rintro _ ⟨⟩
  | ok info =>
    have put : (known.put path.toString info).find? path.toString = some info := by
      rw [Table.find?_put, if_pos rfl]
    constructor
    · simp [put, Entry.since_concat, Entry.drops, Entry.told?, Entry.look?, Except.toOption]
    · rintro _ told
      rw [put] at told
      cases told
      simp [Entry.lastLook?_concat, Entry.look?]

end Reflects

variable [Number α] {settings : Settings} {path : Path} {host : Host α}

def renew (settings : Settings) (path : Path) : Job α (MediaInfo α) := do
  let info ← look settings path
  modify fun host => { host with known := host.known.put path.toString info }
  return info

theorem run_probe_of_unknown (unknown : host.known.find? path.toString = none) :
    (probe settings path).run.run host = (renew settings path).run.run host := by
  unfold probe
  rw [Job.run_get_bind, unknown]
  rfl

/-- What was known before makes no difference to a look, nor does where the homes are. -/
theorem look_ignores (settings : Settings) (path : Path) (known : Table String (MediaInfo α))
    (homes : Path.Homes) : (look settings path).Ignores ({ · with known, homes }) := by
  refine .of_get (fun _ => rfl) fun host => ?_
  split
  · refine .of_get (fun _ => rfl) fun host => ?_
    split
    · exact fun _ => ⟨rfl, rfl⟩
    · refine .of_bind (fun _ => ⟨rfl, rfl⟩) fun ending => ?_
      split
      · exact .of_except _
      · exact .of_throw _
      · exact fun _ => ⟨rfl, rfl⟩
  · exact fun _ => ⟨rfl, rfl⟩

theorem known_look : ((look settings path).after host).known = host.known := by
  have same := (look_ignores settings path host.known host.homes host).2
  exact (congrArg Host.known same).trans rfl

theorem homes_look : ((look settings path).after host).homes = host.homes := by
  have same := (look_ignores settings path host.known host.homes host).2
  exact (congrArg Host.homes same).trans rfl

theorem result_renew : (renew settings path).result host = (look settings path).result host := by
  unfold renew
  rw [Job.result_bind]
  cases (look settings path).result host <;> rfl

theorem looks_renew :
    Looks.on ((renew settings path).after host) = Looks.on ((look settings path).after host) := by
  unfold renew
  rw [Job.after_bind]
  cases (look settings path).result host <;> rfl

theorem known_renew : ((renew settings path).after host).known =
    match (look settings path).result host with
      | .ok info => host.known.put path.toString info
      | .error _ => host.known := by
  unfold renew
  rw [Job.after_bind]
  cases (look settings path).result host with
  | ok info => exact congrArg (Table.put path.toString info) known_look
  | error failure => exact known_look

theorem asked?_probeCommand (tool : String) (path : Path) (timeout : Json) :
    asked? ⟨probeCommand tool path, timeout⟩ = some path.toString := by
  simp only [probeCommand, asked?, List.cons_append, List.dropLast_concat, List.getLast?_concat,
    if_true]

/-- Giving up is no look: what is noted then names a cause. -/
theorem looks_answer (ending : Ending) :
    Looks.on ((answer path ending).after host) = Looks.on host := by
  unfold answer
  split
  · rfl
  · rfl
  · exact (Looks.on_log _ _ _ host).trans (Looks.append_nil _)

theorem looks_look :
    Looks.on ((look settings path).after host) = Looks.on host ++ Looks.one path host := by
  unfold look Job.after Looks.one
  rw [Job.run_get_bind]
  cases host.facts with
  | catalogue facts =>
    rw [Looks.append_eq, List.append_nil, List.append_nil]
    rfl
  | tool =>
    cases has : host.disk.has path with
    | false =>
      dsimp only
      unfold ask
      rw [Job.run_get_bind, has]
      exact Looks.on_log _ _ _ host
    | true =>
      dsimp only
      rw [run_ask_of_has has]
      refine (looks_answer _).trans ((Looks.on_start _ _ host).trans ?_)
      rw [asked?_probeCommand]
      rfl

namespace Turn

def met (turn : Turn α) (known : Table String (MediaInfo α)) : Host α :=
  { turn.host with known }

def leave (settings : Settings) (known : Table String (MediaInfo α)) (turn : Turn α) :
    Table String (MediaInfo α) :=
  match turn.request with
  | .probe path => ((probe settings path).after (turn.met known)).known
  | .forget path => ((forget path).run (turn.met known)).2.known
  | .forgetAll => (forgetAll.run (turn.met known)).2.known

def entry (settings : Settings) (known : Table String (MediaInfo α)) (turn : Turn α) : Entry α :=
  match turn.request with
  | .probe path =>
    let met := turn.met known
    .answered path ((probe settings path).result met)
      ((Looks.on met).count < (Looks.on ((probe settings path).after met)).count)
  | .forget path => .forgot path
  | .forgetAll => .forgotAll

end Turn

def remembered (settings : Settings) (known : Table String (MediaInfo α))
    (turns : List (Turn α)) : Table String (MediaInfo α) :=
  turns.foldl (Turn.leave settings) known

def history (settings : Settings) (known : Table String (MediaInfo α)) :
    List (Turn α) → List (Entry α)
  | [] => []
  | turn :: later => turn.entry settings known :: history settings (turn.leave settings known) later

section Turns

variable {known : Table String (MediaInfo α)} {key : String} {entries : List (Entry α)}

theorem Turn.entry_of_known (settings : Settings) {info : MediaInfo α}
    (found : known.find? path.toString = some info) (host : Host α) :
    Turn.entry settings known ⟨.probe path, host⟩ = .answered path (.ok info) false ∧
      Turn.leave settings known ⟨.probe path, host⟩ = known := by
  have run : (probe settings path).run.run (Turn.met ⟨.probe path, host⟩ known) = _ :=
    run_probe_of_some found
  unfold Turn.entry Turn.leave
  dsimp only
  rw [Job.result, Job.after, run]
  exact ⟨congrArg _ (decide_eq_false (lt_irrefl _)), rfl⟩

theorem Turn.entry_of_unknown (settings : Settings) (unknown : known.find? path.toString = none)
    (host : Host α) :
    Turn.entry settings known ⟨.probe path, host⟩ =
        .answered path ((look settings path).result host) true ∧
      Turn.leave settings known ⟨.probe path, host⟩ = match (look settings path).result host with
        | .ok info => known.put path.toString info
        | .error _ => known := by
  have run : (probe settings path).run.run (Turn.met ⟨.probe path, host⟩ known) = _ :=
    run_probe_of_unknown unknown
  have same := (look_ignores settings path known host.homes host).1
  unfold Turn.entry Turn.leave
  dsimp only
  rw [Job.result, Job.after, run]
  change Entry.answered path ((renew settings path).result _)
      (decide (_ < (Looks.on ((renew settings path).after _)).count)) = _ ∧
    ((renew settings path).after _).known = _
  -- What was known decides nothing of a look, and the look counts although it may tell nothing.
  rw [result_renew, looks_renew, known_renew, looks_look, Looks.count_append, Looks.count_one,
    decide_eq_true (Nat.lt_succ_self _), ← same]
  exact ⟨rfl, rfl⟩

theorem Reflects.step (reflects : Reflects key known entries) (settings : Settings)
    (turn : Turn α) :
    Reflects key (turn.leave settings known) (entries ++ [turn.entry settings known]) := by
  obtain ⟨request, host⟩ := turn
  cases request with
  | probe path =>
    cases found : known.find? path.toString with
    | some info =>
      obtain ⟨entry, leave⟩ := Turn.entry_of_known settings found host
      rw [entry, leave]
      exact reflects.of_other rfl rfl rfl
    | none =>
      obtain ⟨entry, leave⟩ := Turn.entry_of_unknown settings found host
      rw [entry, leave]
      by_cases same : path.toString = key
      · subst same
        exact reflects.of_look found _
      · refine reflects.of_other rfl (by simp [Entry.look?, same]) ?_
        cases (look settings path).result host with
        | error failure => rfl
        | ok info => rw [Table.find?_put, if_neg same]
  | forget path =>
    have erased : (known.erase path.toString).find? key =
        if path.toString = key then none else known.find? key := Table.find?_erase _ _ _
    by_cases same : path.toString = key
    · exact .of_drops (decide_eq_true same) (erased.trans (if_pos same))
    · exact reflects.of_other (decide_eq_false same) rfl (erased.trans (if_neg same))
  | forgetAll => exact .of_drops rfl rfl

theorem Reflects.run (reflects : Reflects key known entries) (turns : List (Turn α)) :
    Reflects key (remembered settings known turns) (entries ++ history settings known turns) := by
  induction turns generalizing known entries with
  | nil =>
    rw [history, List.append_nil]
    exact reflects
  | cons turn later ih =>
    have next := ih (reflects.step settings turn)
    rw [List.append_assoc] at next
    exact next

/-- A turn that has to do with a file comes to the same wherever the same is known of that file. -/
theorem Turn.entry_of_same (settings : Settings) {other : Table String (MediaInfo α)}
    (same : known.find? key = other.find? key) {turn : Turn α}
    (concerns : turn.request.concerns key = true) :
    turn.entry settings known = turn.entry settings other ∧
      (turn.leave settings known).find? key = (turn.leave settings other).find? key := by
  obtain ⟨request, host⟩ := turn
  cases request with
  | probe path =>
    obtain rfl : path.toString = key := of_decide_eq_true concerns
    cases found : known.find? path.toString with
    | some info =>
      obtain ⟨entry, leave⟩ := Turn.entry_of_known settings found host
      obtain ⟨entry', leave'⟩ := Turn.entry_of_known settings (same ▸ found) host
      rw [entry, leave, entry', leave']
      exact ⟨rfl, same⟩
    | none =>
      obtain ⟨entry, leave⟩ := Turn.entry_of_unknown settings found host
      obtain ⟨entry', leave'⟩ := Turn.entry_of_unknown settings (same ▸ found) host
      rw [entry, leave, entry', leave']
      refine ⟨rfl, ?_⟩
      cases (look settings path).result host with
      | error failure => exact same
      | ok info => simp only [Table.find?_put, if_true]
  | forget path =>
    refine ⟨rfl, ?_⟩
    change (known.erase path.toString).find? key = (other.erase path.toString).find? key
    rw [Table.find?_erase, Table.find?_erase, same]
  | forgetAll => exact ⟨rfl, rfl⟩

theorem Turn.find?_leave {turn : Turn α} (other : turn.request.concerns key = false) :
    (turn.leave settings known).find? key = known.find? key := by
  obtain ⟨request, host⟩ := turn
  cases request with
  | probe path =>
    have differ : path.toString ≠ key := of_decide_eq_false other
    cases found : known.find? path.toString with
    | some info => rw [(Turn.entry_of_known settings found host).2]
    | none =>
      rw [(Turn.entry_of_unknown settings found host).2]
      cases (look settings path).result host with
      | error failure => rfl
      | ok info => rw [Table.find?_put, if_neg differ]
  | forget path =>
    have differ : path.toString ≠ key := of_decide_eq_false other
    change (known.erase path.toString).find? key = _
    rw [Table.find?_erase, if_neg differ]
  | forgetAll => cases other

theorem Turn.request_entry (turn : Turn α) :
    (turn.entry settings known).request = turn.request := by
  obtain ⟨request, host⟩ := turn
  cases request <;> rfl

/-- Turns that have to do with a file come to the same without all others. -/
theorem filter_history {other : Table String (MediaInfo α)}
    (same : known.find? key = other.find? key) (turns : List (Turn α)) :
    (history settings known turns).filter (·.request.concerns key) =
      history settings other (turns.filter (·.request.concerns key)) := by
  induction turns generalizing known other with
  | nil => rfl
  | cons turn later ih =>
    rw [history, List.filter_cons, List.filter_cons, Turn.request_entry]
    cases concerns : turn.request.concerns key with
    | true =>
      obtain ⟨entry, leave⟩ := Turn.entry_of_same settings same concerns
      simp only [if_true]
      rw [history, entry, ih leave]
    | false =>
      simp only [Bool.false_eq_true, if_false]
      exact ih ((Turn.find?_leave concerns).trans same)

/-- Asked once more after some turns, a file is looked at once if it is not known by then; else the
answer is that of the last look, and nothing is done for it. -/
theorem probe_after (settings : Settings) (turns : List (Turn α)) (path : Path) (host : Host α) :
    let entries := history settings [] turns
    let met : Host α := { host with known := remembered settings [] turns }
    (Entry.Fresh path.toString entries ∧
        (probe settings path).run.run met = (renew settings path).run.run met ∧
        Looks.on ((probe settings path).after met) = Looks.on met ++ Looks.one path met) ∨
      (¬ Entry.Fresh path.toString entries ∧
        ∃ info, Entry.lastLook? path.toString entries = some (.ok info) ∧
          (probe settings path).run.run met = (.ok info, met)) := by
  intro entries met
  have reflects : Reflects path.toString (remembered settings [] turns) entries :=
    (reflects_nil path.toString).run turns
  rw [reflects.fresh_iff]
  cases known : (remembered settings [] turns).find? path.toString with
  | none =>
    have run : (probe settings path).run.run met = _ := run_probe_of_unknown known
    refine .inl ⟨rfl, run, ?_⟩
    rw [Job.after, run]
    change Looks.on ((renew settings path).after met) = _
    rw [looks_renew]
    exact looks_look
  | some info =>
    exact .inr ⟨Option.some_ne_none info, info, reflects.last info known,
      run_probe_of_some known⟩

end Turns

end Media

end Screencast
