import Boardwalk.Settings.Basic
import Boardwalk.Slug
import Boardwalk.Text.Fill
import Boardwalk.World
/-!
# Sessions

The durable state of one run of a board: a file in the sessions directory, and the journal in memory.
Loading resumes the run that the file holds, a session without a parent only if the user agrees; saving
writes the journal; clearing removes both.
-/

namespace Boardwalk

namespace Model

def normal (m : Model) : Except DumpFault Json := do
  let records ← m.timeline.mapM Record.normal
  return .obj [("storyboard", .str m.board), ("timeline", .arr records)]

def checkTimeline : Value → Schema.Checked Timeline
  | .list vs => Schema.Checked.items Record.check 0 vs
  | .row vs => Schema.Checked.items Record.check 0 vs
  | _ => .bad [⟨[], "list_type"⟩]

def check : Value → Schema.Checked Model
  | .dict fields =>
    let timeline := match fields.lookup "timeline" with
      | some v => (checkTimeline v).below (.field "timeline")
      | none => .good []
    ((Schema.required Schema.text "storyboard" fields).both timeline).map fun (b, t) => ⟨b, t⟩
  | _ => .bad [⟨[], "model_type"⟩]

def ofState (j : Json) : Except Fault Model := (check (Value.ofJson j)).toExcept

end Model

/-- A session of a board: its names, its directory and the question to the user. -/
structure Session (σ : Type) where
  name : String
  directory : Location
  parent : Option String
  settings : Settings
  confirm : String → Code σ Value

namespace Session

variable {σ : Type}

/-- The file name of a session, without its ending: the slug of its names. -/
def stem (parent : Option String) (name : String) : String :=
  match parent with
  | none => Slug.ofText name
  | some p => if p = "" then Slug.ofText name else Slug.ofText (p ++ " " ++ name)

def fileLocation (directory : Location) (parent : Option String) (name : String) : Location :=
  directory.child (stem parent name ++ ".json")

def location (s : Session σ) : Location := fileLocation s.directory s.parent s.name

/-- The location of the file as its manager knows it. -/
def resolved (s : Session σ) : Except Fault Location := s.location.resolve.mapError .disk

def shown (s : Session σ) : String :=
  "StoryboardSession(name=" ++ Text.quoted s.name ++ ", path=" ++ Text.quoted s.location.text ++ ")"

/-- A session below another one resumes without asking. -/
def isNested (s : Session σ) : Bool :=
  match s.parent with
  | some p => p != ""
  | none => false

/-- The answer of an operation that reports its failures. -/
abbrev Answer (α : Type) := Except Fault α

def dumpFault : DumpFault → Fault
  | .undecodable => .undecodable
  | .foreign => .unserializable
  | .tooDeep => .tooDeep

def freshModel (s : Session σ) : Model := ⟨s.name, []⟩

def askResume (s : Session σ) (m : Model) (w : World σ) : Except Fault Bool × World σ :=
  match Text.fill s.settings.resumeMessage "storyboard" m.board with
  | .error f => (.error (.fill f), w)
  | .ok message =>
    let (answer, w) := w.call (s.confirm message)
    (answer.map Value.truth, w)

def resumeAgreed (s : Session σ) (m : Model) (w : World σ) : Except Fault Bool × World σ :=
  if s.isNested then (.ok true, w) else s.askResume m w

def readFile (s : Session σ) (w : World σ) : Except Fault (Option Json) × World σ :=
  match w.disk.makeDirs s.directory with
  | (.error f, d) => (.error (.disk f), w.withDisk d)
  | (.ok _, d) =>
    match s.resolved with
    | .error f => (.error f, w.withDisk d)
    | .ok l =>
      let (r, d) := StateFile.read w.held l d
      (r, w.withDisk d)

/-- The run to resume: none if there is no file or the user declines. -/
def storedModel (s : Session σ) (w : World σ) : Except Fault (Option Model) × World σ :=
  match s.readFile w with
  | (.error f, w) => (.error f, w)
  | (.ok none, w) => (.ok none, w)
  | (.ok (some j), w) =>
    match Model.ofState j with
    | .error f => (.error f, w)
    | .ok m =>
      match s.resumeAgreed m w with
      | (.error f, w) => (.error f, w)
      | (.ok true, w) =>
        (.ok (some m), w.report (Log.entry Log.info Log.Logger.session "Resuming session"
          [("session", .str s.name), ("records", .int m.timeline.length)]))
      | (.ok false, w) =>
        (.ok none, w.report (Log.entry Log.info Log.Logger.session "Previous session discarded"
          [("session", .str s.name)]))

def failureText (label : String) (f : Fault) : String := label ++ ": " ++ f.message?.getD ""

/-- Puts a journal into memory: the stored one, or a fresh one. An unreadable file is reported and leaves
a fresh journal; any other fault is raised and leaves the memory as it was. -/
def load (s : Session σ) (a : Address) (w : World σ) : Except Fault (Answer Model) × World σ :=
  match s.storedModel w with
  | (.ok (some m), w) => (.ok (.ok m), w.remember a m)
  | (.ok none, w) => (.ok (.ok s.freshModel), w.remember a s.freshModel)
  | (.error f, w) =>
    if f.isUnreadable then
      let w := w.report (Log.entry Log.error Log.Logger.session (failureText "Failed to load session" f)
        [("session", .str s.name), ("path", .str s.location.text)])
      let w := w.report (Log.entry Log.warning Log.Logger.session "Using fresh session" [])
      (.ok (.error f), w.remember a s.freshModel)
    else (.error f, w)

def draft (s : Session σ) (m : Model) : Except Fault (Location × Json) := do
  let l ← s.resolved
  let j ← m.normal.mapError dumpFault
  return (l, j)

def reportUnwritten (label : String) (l : Location) (f : Fault) (w : World σ) : World σ :=
  w.report (Log.entry Log.error Log.Logger.stateFile (failureText label f)
    [("path", .str (l.fullText w.base))])

def reportUnsaved (s : Session σ) (f : Fault) (w : World σ) : World σ :=
  w.report (Log.entry Log.error Log.Logger.session (failureText "Failed to save session" f) [("session", .str s.name)])

def save (s : Session σ) (a : Address) (w : World σ) : Answer Unit × World σ :=
  match w.model? a with
  | none => (.error (.notLoaded s.name), w)
  | some m =>
    match s.draft m with
    | .error f => (.error f, s.reportUnsaved f w)
    | .ok (l, j) =>
      if j.isWritable then
        match StateFile.write w.held l j.bytes? w.disk with
        | (.ok _, d) => (.ok (), w.withDisk d)
        | (.error f, d) =>
          if f.family == .disk then
            (.error (.notWritten s.location.text), reportUnwritten "Error updating state" l f (w.withDisk d))
          else (.error f, s.reportUnsaved f (w.withDisk d))
      else (.error (.notWritten s.location.text), reportUnwritten "State is not JSON serializable" l .noNumeral w)

/-- Removes the file and drops the journal. Nothing to remove is no failure; a location that no file can have is a
fault that is raised. -/
def clear (s : Session σ) (a : Address) (w : World σ) : Except Fault (Answer Unit) × World σ :=
  match s.resolved with
  | .error f => (.error f, w)
  | .ok l =>
    match StateFile.delete w.held l w.disk with
    | (.error f, d) =>
      (.ok (.error f), (w.withDisk d).report (Log.entry Log.error Log.Logger.session
        (failureText "Failed to clear session" f) [("session", .str s.name)]))
    | (.ok removed, d) =>
      let w := (w.withDisk d).forget a
      let w := if removed then
          w.report (Log.entry Log.info Log.Logger.session "Session cleared" [("session", .str s.name)])
        else w
      (.ok (.ok ()), w)

def fileExists (s : Session σ) (w : World σ) : Except Fault Bool :=
  (w.disk.existsAt s.location).mapError .disk

end Session

end Boardwalk
