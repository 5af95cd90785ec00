import Screencast.Failure

/-!
Log records: how grave each is, who wrote it, and what it says.
-/

namespace Screencast.Log

abbrev Level := Int

namespace Level

def debug : Level := 10
def info : Level := 20
def warning : Level := 30
def error : Level := 40
def critical : Level := 50

def name (level : Level) : String :=
  if level = debug then "DEBUG"
  else if level = info then "INFO"
  else if level = warning then "WARNING"
  else if level = error then "ERROR"
  else if level = critical then "CRITICAL"
  else if level = 0 then "NOTSET"
  else "Level " ++ toString level

end Level

def packageLogger : String := "demo_timeline"

def loggerName (name : String) : String :=
  packageLogger ++ "." ++ name

/-- A part of what a record says; a cause is told by its kind. -/
inductive Word where
  | text (text : String)
  | cause (cause : Failure)
deriving Repr

structure Record where
  level : Level
  logger : String
  words : List Word
deriving Repr

end Screencast.Log
