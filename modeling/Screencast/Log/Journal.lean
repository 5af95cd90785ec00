import Screencast.Disk
import Screencast.Log.Record
import Screencast.Log.Template

/-!
The journal of the log. Records go to the console and to a file, each of which takes them from a
level of its own on; below the journal's level nothing is recorded at all.
-/

namespace Screencast.Log

inductive Outlet where
  | console
  | file (path : Path)
deriving DecidableEq, Repr

structure Handler where
  outlet : Outlet
  level : Level
deriving DecidableEq, Repr

structure Journal where
  /-- Nought leaves it to those who use the library. -/
  level : Level := 0
  handlers : List Handler := []
  /-- What has come to the console so far. -/
  console : String := ""
  disk : Disk := []

namespace Journal

def openFile (disk : Disk) (path : Path) : Except Failure Disk := do
  if disk.has path then disk.write path (← disk.read path) else disk.write path ""

/-- The outlets in place of those there were. A file that cannot be opened leaves none. -/
def setup (journal : Journal) (file : Option Path) (level consoleLevel : Level) :
    Except Failure Unit × Journal :=
  let console : Handler := ⟨.console, consoleLevel⟩
  let lowest := min level consoleLevel
  match file with
  | none => (.ok (), { journal with handlers := [console], level := lowest })
  | some path =>
    match openFile journal.disk path with
    | .error failure => (.error failure, { journal with handlers := [] })
    | .ok disk =>
      (.ok (), { journal with disk, handlers := [⟨.file path, level⟩, console], level := lowest })

def effectiveLevel (journal : Journal) : Level :=
  if journal.level = 0 then .warning else journal.level

def takes (journal : Journal) (level : Level) : Bool :=
  0 < level && journal.effectiveLevel ≤ level

def line (logger : String) (level : Level) (message : String) : String :=
  logger ++ " - " ++ level.name ++ " - " ++ message ++ "\n"

def append (journal : Journal) (text : String) : Outlet → Journal
  | .console => { journal with console := journal.console ++ text }
  | .file path =>
    let before := (journal.disk.read path).toOption.getD ""
    match journal.disk.write path (before ++ text) with
    | .ok disk => { journal with disk }
    | .error _ => journal

/-- Records a message, given as a template with arguments, for the logger of this name. A template
that does not suit its arguments is not recorded. -/
def log (journal : Journal) (name : String) (level : Level) (template : String)
    (arguments : List Json) : Journal :=
  if journal.takes level then
    match Template.message? template arguments with
    | none => journal
    | some message =>
      let text := line (loggerName name) level message
      (journal.handlers.filter (·.level ≤ level)).foldl
        (fun journal handler => journal.append text handler.outlet) journal
  else journal

def consoleLines (journal : Journal) : Nat :=
  journal.console.toList.count '\n'

end Journal

end Screencast.Log
