import Boardwalk.Command.Grammar
/-!
# The arguments of the command line

The command line lists, shows and clears the sessions in a directory.
-/

namespace Boardwalk.Command

inductive Request where
  | list
  | show (name : String) (parent : Option String)
  | clear (name : String) (parent : Option String)
  deriving DecidableEq, Inhabited

structure Arguments where
  /-- The sessions directory; none or an empty one leaves that of the settings. -/
  sessionsPath : Option String
  request : Request
  deriving DecidableEq, Inhabited

def helpSwitch : Switch := ⟨["-h", "--help"], .help⟩

def pathSwitch : Switch := ⟨["--sessions-path"], .value "sessions_path"⟩

def topLevel : Level :=
  ⟨"storyboard", [helpSwitch, ⟨["--version"], .version⟩, pathSwitch], .command "command" ["sessions"]⟩

def sessionsLevel : Level :=
  ⟨"storyboard sessions", [helpSwitch], .command "action" ["list", "show", "clear"]⟩

def listLevel : Level := ⟨"storyboard sessions list", [helpSwitch], .nothing⟩

def namedLevel (action : String) : Level :=
  ⟨"storyboard sessions " ++ action, [helpSwitch, ⟨["--parent"], .value "parent"⟩], .text "name"⟩

def versionText : String := "cli-storyboard 0.1.0"

def requestOf (action : String) (args : List String) : Except Stop (Request × List String) :=
  if action = "list" then do
    let p ← listLevel.read args
    return (.list, p.extras)
  else do
    let p ← (namedLevel action).read args
    let name := (p.value? "name").getD ""
    let parent := p.value? "parent"
    return (if action = "show" then .show name parent else .clear name parent, p.extras)

def Arguments.read (args : List String) : Except Stop Arguments := do
  let top ← topLevel.read args
  let sessions ← sessionsLevel.read top.rest
  let (request, extras) ← requestOf ((sessions.value? "action").getD "") sessions.rest
  unrecognized topLevel.title (top.extras ++ sessions.extras ++ extras)
  return ⟨top.value? "sessions_path", request⟩

end Boardwalk.Command
