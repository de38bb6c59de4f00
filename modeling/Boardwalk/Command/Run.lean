import Boardwalk.Command.Arguments
import Boardwalk.Console
import Boardwalk.Session
/-!
# Running the command line

Settings that make no sense end the program before the log is set up. A fault of an action is reported and
gives an exit code, and so does one of the console when it prints. Listing reads every session file and says where a run
on it would begin; it changes none of them.
-/

namespace Boardwalk.Command

inductive Printed where
  | text (s : String) (style : Option String)
  | table (title : String) (columns : List String) (rows : List (List String))
  | json (s : String)
  deriving DecidableEq

/-- The texts that go through the markup of the console, in the order in which they do. -/
def Printed.markups : Printed → List String
  | .text s _ => [s]
  | .table title columns rows =>
    (columns.mapIdx fun i head => head :: rows.map fun r => r[i]?.getD "").flatten ++ [title]
  | .json _ => []

def showAll (console : Console) : List String → Except Fault Unit
  | [] => .ok ()
  | text :: texts => do
    let _ ← console text
    showAll console texts

inductive Exit where
  | code (n : Nat)
  | stopped (s : Stop)
  | misconfigured (issues : List Issue)
  | raised (f : Fault)

def Exit.code? : Exit → Option Nat
  | .code n => some n
  | .stopped s => some s.exitCode
  | .misconfigured _ => some 2
  | .raised _ => none

def misconfiguredText : String := "Configuration error (check your .env):"

def Exit.notice? : Exit → Option String
  | .stopped (.misuse title complaint) => some (title ++ ": error: " ++ complaint)
  | .misconfigured _ => some misconfiguredText
  | _ => none

structure Report (σ : Type) where
  exit : Exit
  printed : List Printed
  level : Nat
  world : World σ

def Report.shownLog {σ : Type} (r : Report σ) : List Log.Entry :=
  r.world.log.filter (·.isShown r.level)

abbrev Task (σ : Type) := World σ → Except Fault (Nat × Printed) × World σ

variable {σ : Type}

def modelOf (state : Option Json) : Except Fault (Option Model) :=
  match state with
  | none => .ok none
  | some j => (Model.ofState j).map some

def readModel (l : Location) (w : World σ) : Except Fault (Option Model) × World σ :=
  match l.resolve with
  | .error f => (.error (.disk f), w)
  | .ok l =>
    match StateFile.read w.held l w.disk with
    | (.error f, d) => (.error f, w.withDisk d)
    | (.ok state, d) => (modelOf state, w.withDisk d)

/-! ## Listing -/

def columns : List String := ["File", "Storyboard", "Records", "Last frame", "Resumes at"]

def lastLabel (t : Timeline) : String :=
  match t.getLast? with
  | none => "-"
  | some r => r.name ++ " (" ++ r.kind ++ (if r.isCompleted then "" else ", in flight") ++ ")"

/-- The row of a session. There is none if the numeral of the cursor would be too long. -/
def row (name : String) (m : Model) : Except Fault (List String) :=
  if Number.hasNumeral m.timeline.cursor then
    .ok [name, m.board, Value.intText m.timeline.length, lastLabel m.timeline,
      Value.intText m.timeline.cursor]
  else .error .noNumeral

def unreadableRow (name : String) : List String := [name, "[red]unreadable[/red]", "-", "-", "-"]

def isSessionName (name : String) : Bool := ".json".toList.isSuffixOf name.toList

def sessionNames (directory : Location) (d : Disk) : Except Fault (List String) := do
  match ← (d.nodeAt directory).mapError .disk, d.reach directory with
  | some .dir, .ok p =>
    return ((d.entries p).filter isSessionName).mergeSort fun a b => decide (a ≤ b)
  | _, _ => return []

def listFile (directory : Location) (name : String) (w : World σ) :
    Except Fault (Option (List String)) × World σ :=
  let file := directory.child name
  match readModel file w with
  | (.ok none, w) => (.ok none, w)
  | (.ok (some m), w) => ((row name m).map some, w)
  | (.error f, w) =>
    if f.isUnreadable then
      (.ok (some (unreadableRow name)), w.report (Log.entry Log.warning Log.Logger.command
        (Session.failureText "Unreadable session file" f) [("path", .str file.text)]))
    else (.error f, w)

def listFiles (directory : Location) :
    List String → World σ → Except Fault (List (List String)) × World σ
  | [], w => (.ok [], w)
  | n :: ns, w =>
    match listFile directory n w with
    | (.error f, w) => (.error f, w)
    | (.ok r, w) =>
      let (rs, w) := listFiles directory ns w
      (rs.map (r.toList ++ ·), w)

def listSessions (directory : Location) : Task σ := fun w =>
  match sessionNames directory w.disk with
  | .error f => (.error f, w)
  | .ok [] => (.ok (0, .text ("No sessions in " ++ directory.text) none), w)
  | .ok names =>
    let (rows, w) := listFiles directory names w
    (rows.map fun rows => (0, .table ("Sessions in " ++ directory.text) columns rows), w)

/-! ## One session -/

def noSession (file : Location) : Nat × Printed :=
  (1, .text ("No session at " ++ file.text) (some "red"))

def showSession (file : Location) : Task σ := fun w =>
  match readModel file w with
  | (.error f, w) => (.error f, w)
  | (.ok none, w) => (.ok (noSession file), w)
  | (.ok (some m), w) =>
    match m.normal with
    | .error f => (.error (Session.dumpFault f), w)
    | .ok j => (.ok (0, .json j.line), w)

def sessionAt (settings : Settings) (name : String) (parent : Option String) : Session σ :=
  ⟨name, settings.sessionsPath, parent, settings, fun _ w => (.ok (.bool false), w.scene)⟩

def clearSession (s : Session σ) : Task σ := fun w =>
  match s.fileExists w with
  | .error f => (.error f, w)
  | .ok false => (.ok (noSession s.location), w)
  | .ok true =>
    match s.clear [] w with
    | (.error f, w) => (.error f, w)
    | (.ok (.ok _), w) => (.ok (0, .text ("Cleared " ++ s.location.text) none), w)
    | (.ok (.error f), w) => (.ok (1, .text
        (Session.failureText ("Could not clear " ++ s.location.text) f) (some "red")), w)

/-! ## The program -/

def task (settings : Settings) : Request → Task σ
  | .list => listSessions settings.sessionsPath
  | .show name parent => showSession (Session.fileLocation settings.sessionsPath parent name)
  | .clear name parent => clearSession (sessionAt settings name parent)

/-- The settings with the sessions directory that the arguments give, unless that is empty. -/
def withPath (settings : Settings) (path : Option String) : Settings :=
  match path with
  | none => settings
  | some p => if p = "" then settings else { settings with sessionsPath := Location.ofText p }

def directory? (arguments : List String) (environment : List (String × String)) (d : Disk) :
    Option Location :=
  match Arguments.read arguments, Settings.loadAt [] environment d with
  | .ok a, .ok settings => some (withPath settings a.sessionsPath).sessionsPath
  | _, _ => none

/-- The task, with what it prints shown on a console. -/
def shownTask (console : Console) (settings : Settings) (request : Request) : Task σ := fun w =>
  match task settings request w with
  | (.error f, w) => (.error f, w)
  | (.ok (code, printed), w) => ((showAll console printed.markups).map fun _ => (code, printed), w)

def perform (console : Console) (settings : Settings) (request : Request) (level : Nat) (w : World σ) : Report σ :=
  match shownTask console settings request w with
  | (.ok (code, printed), w) => ⟨.code code, [printed], level, w⟩
  | (.error f, w) =>
    ⟨.code 1, [], level, w.report { Log.entry Log.error Log.Logger.command "Command failed" [] with
      fault := some (f.message?.getD "") }⟩

def runWith (console : Console) (settings : Settings) (request : Request) (w : World σ) : Report σ :=
  match Log.levelsOf? settings.logLevel with
  | none => ⟨.raised (.unknownLevel settings.logLevel), [], 0, w⟩
  | some levels => perform console settings request levels.shown w

def run (console : Console) (arguments : List String) (environment : List (String × String)) (w : World σ) :
    Report σ :=
  match Arguments.read arguments with
  | .error s => ⟨.stopped s, [], 0, w⟩
  | .ok a =>
    match Settings.loadAt [] environment w.disk with
    | .error (.invalid issues) => ⟨.misconfigured issues, [], 0, w⟩
    | .error f => ⟨.raised f, [], 0, w⟩
    | .ok settings => runWith console (withPath settings a.sessionsPath) a.request w

end Boardwalk.Command
