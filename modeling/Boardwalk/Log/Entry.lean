import Boardwalk.Number.Numeral
import Boardwalk.Value.Basic
/-!
# Log entries

What the library reports while it works: a level, the part of the library that reports, a message, and
named values for those who filter.
-/

namespace Boardwalk.Log

/-- The levels by number, with the name under which each is reported. -/
def debug : Nat := 10
def info : Nat := 20
def warning : Nat := 30
def error : Nat := 40
def critical : Nat := 50

def levelName (n : Nat) : String :=
  if n = 0 then "NOTSET"
  else if n = debug then "DEBUG"
  else if n = info then "INFO"
  else if n = warning then "WARNING"
  else if n = error then "ERROR"
  else if n = critical then "CRITICAL"
  else "Level " ++ toString n

def levelOf? (name : String) : Option Nat :=
  [("CRITICAL", critical), ("FATAL", critical), ("ERROR", error), ("WARN", warning),
    ("WARNING", warning), ("INFO", info), ("DEBUG", debug), ("NOTSET", 0)].lookup name

/-- The levels of a configured log: the least that it shows, and the least of the locks, which report every step
below a warning. -/
structure Levels where
  shown : Nat
  locks : Nat

/-- The levels of a log that is configured by the name of a level. -/
def levelsOf? (name : String) : Option Levels := (levelOf? name).map fun n => ⟨n, max n warning⟩

structure Entry where
  level : Nat
  logger : String
  message : String
  extras : List (String × Value)
  fault : Option String

/-- May the line of an entry be written? One that holds a number without a numeral is dropped. -/
def Entry.isWritable (e : Entry) : Bool :=
  e.extras.all fun x => match x.2 with
    | .int n => Number.hasNumeral n
    | _ => true

def Entry.isShown (level : Nat) (e : Entry) : Bool := level ≤ e.level && e.isWritable

namespace Logger

def timeline : String := "cli_storyboard.session.timeline"
def stateFile : String := "cli_storyboard.session.state_manager"
def session : String := "cli_storyboard.session.store"
def board : String := "cli_storyboard.storyboard.storyboard"
def command : String := "cli_storyboard.main"

end Logger

def entry (level : Nat) (logger message : String) (extras : List (String × Value)) : Entry :=
  ⟨level, logger, message, extras, none⟩

end Boardwalk.Log
