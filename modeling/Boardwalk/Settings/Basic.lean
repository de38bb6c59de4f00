import Boardwalk.Disk.Basic
import Boardwalk.Record.Schema
import Boardwalk.Settings.Variables
import Boardwalk.Text.Upper
/-!
# Settings

What boards, state files and the command line share. Each field is taken from the first source that has
it: arguments, the environment, a file of variables. All fields are checked, and the defects of all of them
are reported in the order of the fields.
-/

namespace Boardwalk

structure Settings where
  sessionsPath : Location
  logLevel : String
  lockTimeout : Float
  strictLoad : Bool
  resumeMessage : String
  deriving Inhabited

namespace Settings

def defaults : Settings where
  sessionsPath := Location.ofText ".storyboard/sessions"
  logLevel := "INFO"
  lockTimeout := Number.ofInt 10
  strictLoad := false
  resumeMessage := "Continue previous session of \x7bstoryboard\x7d?"

def variablePrefixed (field : String) : String := "storyboard_" ++ field

def fieldNames : List String :=
  ["sessions_path", "log_level", "lock_timeout", "strict_load", "resume_message"]

/-- The fields that a list of variables sets; the case of a name does not matter, and the last variable of
a name counts. -/
def ofVariables (vars : List (String × Option String)) : List (String × Value) :=
  fieldNames.filterMap fun f => do
    let v ← vars.reverse.find? fun v => Text.lower v.1 == variablePrefixed f
    return (f, .str (← v.2))

/-- Only a text gives a location; bytes do not. -/
def readLocation : Value → Schema.Reading Location
  | .str s => .ok (Location.ofText s)
  | _ => .error "path_type"

/-- A level name without blanks around it, in capitals. -/
def readLevel (v : Value) : Schema.Reading String :=
  (Schema.text v).map fun s => Text.upper (Text.trim s)

def readTimeout (v : Value) : Schema.Reading Float :=
  match Schema.number v with
  | .ok x => if Number.ofInt 0 < x then .ok x else .error "greater_than"
  | .error e => .error e

def check (fields : List (String × Value)) : Schema.Checked Settings :=
  ((Schema.optional readLocation "sessions_path" defaults.sessionsPath fields).both
    ((Schema.optional readLevel "log_level" defaults.logLevel fields).both
      ((Schema.optional readTimeout "lock_timeout" defaults.lockTimeout fields).both
        ((Schema.optional Schema.truth "strict_load" defaults.strictLoad fields).both
          (Schema.optional Schema.text "resume_message" defaults.resumeMessage fields))))).map
    fun (path, level, timeout, strict, message) => ⟨path, level, timeout, strict, message⟩

def load (arguments : List (String × Value)) (environment : List (String × String))
    (file : List (String × Option String)) : Except Fault Settings :=
  (check (arguments ++ ofVariables (environment.map fun v => (v.1, some v.2)) ++
    ofVariables file)).toExcept

def variablesPlace : Place := [".env"]

/-- The variables that the file holds; none if there is no such file. -/
def fileVariables (environment : List (String × String)) (d : Disk) :
    Except Fault (List (String × Option String)) :=
  match d.file? variablesPlace with
  | none => .ok []
  | some c => match String.fromUTF8? c with
    | some text => .ok (Variables.ofText environment text)
    | none => .error .undecodable

def loadAt (arguments : List (String × Value)) (environment : List (String × String)) (d : Disk) :
    Except Fault Settings := do
  load arguments environment (← fileVariables environment d)

/-- The settings that are kept, or else those of the working directory, which are kept from then on. -/
def reuse (kept : Option Settings) (environment : List (String × String)) (d : Disk) :
    Except Fault Settings × Option Settings :=
  match kept with
  | some s => (.ok s, some s)
  | none =>
    match loadAt [] environment d with
    | .ok s => (.ok s, some s)
    | .error f => (.error f, none)

end Settings

end Boardwalk
