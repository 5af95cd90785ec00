import Screencast.Disk
import Screencast.Log.Record
import Screencast.Media.Info
import Screencast.Text.Quoted

/-!
The host: the machine on which videos are rendered. It has a disk, runs programs one after another
and keeps a log; how each program will end is given beforehand, one outcome after another.
-/

namespace Screencast

inductive Outcome where
  | timedOut
  /-- It cannot be started; the text says why. -/
  | refused (text : String)
  /-- It ends by itself, perhaps after it has put a text into the file that its last argument
  names. -/
  | exited (code : Int) (output errors : String) (created : Option String)
deriving Repr

inductive Ending where
  | timedOut
  | refused (cause : Failure) (text : String)
  | exited (code : Int) (output errors : String)
deriving Repr

/-- A program that was started, and the seconds it was given; null for any time. -/
structure Call where
  command : List String
  timeout : Json
deriving Repr

/-- Where the facts about media files come from. -/
inductive Facts (α : Type) where
  /-- The probe tool is asked. -/
  | tool
  /-- A table of the files' names is consulted. -/
  | catalogue (facts : Table String (MediaInfo α))

structure Host (α : Type) where
  disk : Disk := []
  homes : Path.Homes := ⟨⟨.root, []⟩, []⟩
  /-- The programs that are found by their names, and where they are. -/
  programs : Table String String := []
  outcomes : List Outcome := []
  calls : List Call := []
  records : List Log.Record := []
  facts : Facts α := .tool
  /-- What is known of media files by their paths. -/
  known : Table String (MediaInfo α) := []
  /-- The names that were looked up in the catalogue. -/
  looked : List String := []

/-- What is done on the host and cannot fail. -/
abbrev Act (α : Type) := StateM (Host α)

/-- What is done on the host and may fail. -/
abbrev Job (α : Type) := ExceptT Failure (StateM (Host α))

def Job.ofAct {α β : Type} (act : Act α β) : Job α β :=
  ExceptT.lift act

namespace Host

variable {α : Type}

def log (level : Log.Level) (logger : String) (words : List Log.Word) : Act α Unit :=
  modify fun host =>
    { host with records := host.records ++ [⟨level, Log.loggerName logger, words⟩] }

/-- The outcome of a program of which nothing is said: it does its work. -/
def defaultOutcome : Outcome := .exited 0 "" "" (some "rendered")

def systemText (failure : Failure) (path : Path) : String :=
  let words := match failure with
    | .isFolder => "[Errno 21] Is a directory: "
    | .notFolder => "[Errno 20] Not a directory: "
    | _ => "[Errno 2] No such file or directory: "
  words ++ Text.quoted path.toString

def settle (disk : Disk) (command : List String) : Outcome → Ending × Disk
  | .timedOut => (.timedOut, disk)
  | .refused text => (.refused .notStarted text, disk)
  | .exited code output errors none => (.exited code output errors, disk)
  | .exited code output errors (some text) =>
    let path := Path.ofString (command.getLast?.getD "")
    match disk.write path text with
    | .ok disk => (.exited code output errors, disk)
    | .error failure => (.refused failure (systemText failure path), disk)

def start (command : List String) (timeout : Json) : Act α Ending := fun host =>
  let (ending, disk) := settle host.disk command (host.outcomes.head?.getD defaultOutcome)
  (ending, { host with
    disk, outcomes := host.outcomes.tail, calls := host.calls ++ [⟨command, timeout⟩] })

def copy (source target : Path) : Act α (Except Failure Unit) := fun host =>
  match host.disk.copy source target with
  | .ok disk => (.ok (), { host with disk })
  | .error failure => (.error failure, host)

end Host

end Screencast
