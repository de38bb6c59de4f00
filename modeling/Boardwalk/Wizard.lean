import Boardwalk.Board.Walk
import Boardwalk.Command.Run
import Boardwalk.Prompt.Question
/-!
# A wizard for new projects

A board that asks for the name and the language of a project, makes its directory, and leaves the choice of
its modules to a board below. An interrupted run is resumed where it stopped.
-/

namespace Boardwalk.Wizard

/-! ## Frames -/

def asking {α : Type} (dialog : Dialog α) (toValue : α → Value) : Code Terminal Value := fun w =>
  let (answer, t) := dialog w.user
  (answer.map toValue, ⟨w.disk, t⟩)

def askName : Action Terminal := fun _ =>
  asking (Prompt.input "Project name" (.str "my-project") none none) id

def askLanguage : Action Terminal := fun _ =>
  asking (Prompt.select "Language" [.str "python", .str "typescript", .str "go"] (.int 0) none none)
    .str

def askModules : Action Terminal := fun _ =>
  asking (Prompt.multiSelect "Modules" [.str "api", .str "cli", .str "docs"] .null none none)
    fun names => .list (names.map .str)

def outputOf (v : View) (name : String) : Except Fault Value := do
  match ← v.record? (.name name) with
  | some r => return r.output
  | none => throw .noOutputField

def hasNoName : Condition Terminal := fun v w =>
  ((outputOf v "name").map fun name => .bool !name.truth, w.scene)

def projectContext : Provider Terminal := fun v _ w =>
  ((do return .dict [("name", ← outputOf v "name"), ("language", ← outputOf v "language")]), w.scene)

def readmeText (name language : String) : String :=
  "# " ++ name ++ "\n\nLanguage: " ++ language ++ "\n"

def makeProject (name language : String) : Code Terminal Value := fun w =>
  let target := Location.ofText name
  match w.disk.makeDirs target with
  | (.error f, d) => (.error (.disk f), ⟨d, w.user⟩)
  | (.ok dir, d) =>
    match StateFile.overwrite (Text.encode? (readmeText name language)) (dir ++ ["README.md"]) d with
    | (.error f, d) => (.error f, ⟨d, w.user⟩)
    | (.ok _, d) => (.ok (.str target.text), ⟨d, w.user⟩)

def scaffold : Action Terminal := fun context =>
  let field (k : String) : Value := match context with
    | .dict fs => (fs.lookup k).getD .null
    | _ => .null
  match field "name" with
  | .str name => makeProject name (field "language").text
  | v => fun w => (.error (.notPath v.kindWord), w.scene)

/-! ## Boards -/

def sessionOf (settings : Settings) (directory : Location) (name : String) (parent : Option String) :
    Session Terminal :=
  ⟨name, directory, parent, settings, fun message => asking (Prompt.confirm message none) .bool⟩

def modules (settings : Settings) (directory : Location) : Board Terminal :=
  ⟨"modules", sessionOf settings directory "modules" (some "create project"), some Resolver.outputs,
    [.work .key "modules" none none askModules]⟩

def board (settings : Settings) (directory : Location) : Board Terminal :=
  ⟨"create project", sessionOf settings directory "create project" none, some Resolver.outputs,
    [.work .key "name" none none askName,
      .stop (some "empty_name") hasNoName,
      .work .key "language" none none askLanguage,
      .work .key "scaffold" none (some projectContext) scaffold,
      .story (modules settings directory) none none]⟩

/-! ## The program -/

def level : Command.Level :=
  ⟨"create-project", [Command.helpSwitch, Command.pathSwitch], .nothing⟩

/-- Enough for a walk from any place of the boards: none of their frames jumps. -/
def stepLimit : Nat := 16

structure Report where
  exit : Command.Exit
  printed : String
  level : Nat
  kept : Option Settings
  world : World Terminal

def Report.shownLog (r : Report) : List Log.Entry := r.world.log.filter (·.isShown r.level)

def conclude (e : Ending) : Command.Exit × String :=
  match e with
  | .success o => (.code 0, o.toValue.shown ++ "\n")
  | .failure f => (.code 1, Session.failureText "Wizard failed" f ++ "\n")
  | .raised f => (.raised f, "")
  | .unfinished => (.code 1, "")

def runWith (settings : Settings) (path : Option String) (w : World Terminal) : Report :=
  match Log.levelsOf? settings.logLevel with
  | none => ⟨.raised (.unknownLevel settings.logLevel), "", 0, some settings, w⟩
  | some levels =>
    let directory := (Command.withPath settings path).sessionsPath
    let (e, w) := (board settings directory).run stepLimit (.dict []) w
    let (exit, printed) := conclude e
    ⟨exit, printed, levels.shown, some settings, w⟩

def readPath (arguments : List String) : Except Command.Stop (Option String) := do
  let p ← level.read arguments
  Command.unrecognized level.title p.extras
  return p.value? "sessions_path"

/-- Runs the wizard in a working directory, with the settings that are kept from a run before. -/
def run (arguments : List String) (environment : List (String × String)) (kept : Option Settings)
    (w : World Terminal) : Report :=
  match readPath arguments with
  | .error s => ⟨.stopped s, "", 0, kept, w⟩
  | .ok path =>
    match Settings.reuse kept environment w.disk with
    | (.error f, kept) => ⟨.raised f, "", 0, kept, w⟩
    | (.ok settings, _) => runWith settings path w

end Boardwalk.Wizard
