import Boardwalk.Queue.Basic
import Boardwalk.World
/-!
# Managers of state files

A manager runs the operations on one state file in a queue. The registry knows the manager of every file
that is in use, so that all who look a file up share one queue. A manager leaves the registry after it has
deleted its file, unless it has more to do.
-/

namespace Boardwalk

inductive Sequel where
  | answer
  | forget
  | write (v : Value)

structure Caller where
  call : Nat
  ticket : Nat
  sequel : Sequel

structure Manager (σ : Type) where
  text : String
  location : Location
  queue : Queue (World σ)
  callers : List Caller

inductive Call (σ : Type) where
  | update (v : Value)
  | read
  | delete
  /-- Makes the file or empties it, and writes a value if there is one. -/
  | init (v : Option Value)
  | custom (j : Job (World σ))

structure Registry (σ : Type) where
  managers : List (Manager σ)
  registered : List (Place × Nat)
  answers : List (Nat × Except Fault Value)
  world : World σ

namespace Registry

variable {σ : Type}

def ofWorld (w : World σ) : Registry σ := ⟨[], [], [], w⟩

/-! ## Managers -/

/-- A manager that nobody shares. -/
def manager (r : Registry σ) (text : String) (l : Location) : Nat × Registry σ :=
  (r.managers.length, { r with managers := r.managers ++ [⟨text, l, .empty, []⟩] })

def registered? (r : Registry σ) (l : Location) : Except DiskFault (Option Nat) := do
  return r.registered.lookup (← l.resolve).place

/-- The manager that all who look up a file share. -/
def shared (r : Registry σ) (l : Location) : Except DiskFault (Nat × Registry σ) := do
  let l ← l.resolve
  match r.registered.lookup l.place with
  | some m => return (m, r)
  | none =>
    let (m, r) := r.manager (l.fullText r.world.base) l
    return (m, { r with registered := (l.place, m) :: r.registered })

/-- Takes a manager out of the registry, but never another one in its place. -/
def forget (r : Registry σ) (m : Nat) : Registry σ :=
  { r with registered := r.registered.filter (·.2 != m) }

def withManager (r : Registry σ) (m : Nat) (x : Manager σ) : Registry σ :=
  { r with managers := r.managers.set m x }

def answer (r : Registry σ) (call : Nat) (result : Except Fault Value) : Registry σ :=
  { r with answers := r.answers ++ [(call, result)] }

def report (r : Registry σ) (x : Manager σ) (message : String) : Registry σ :=
  { r with world := r.world.report (Log.entry Log.error Log.Logger.stateFile message
      [("path", .str x.text)]) }

/-! ## Operations on the file -/

def fileJob (l : Location) (op : List Place → Location → Disk → Except Fault Value × Disk)
    (after : Except Fault Value → World σ → Except Fault Value × World σ) : Job (World σ) where
  yields := 1
  begin w := w
  finish w :=
    let (result, d) := op w.held l w.disk
    after result (w.withDisk d)

def failSoftly (label text : String) (result : Except Fault Value) (w : World σ) :
    Except Fault Value × World σ :=
  match result with
  | .ok v => (.ok v, w)
  | .error f =>
    if f.family == .disk then
      (.ok (.bool false), w.report (Log.entry Log.error Log.Logger.stateFile
        (label ++ ": " ++ f.message?.getD "") [("path", .str text)]))
    else (.error f, w)

def done (x : Except Fault Unit × Disk) : Except Fault Value × Disk :=
  (x.1.map fun _ => .bool true, x.2)

def writeJob (x : Manager σ) (j : Json) : Job (World σ) :=
  fileJob x.location (fun held l d => done (StateFile.write held l j.bytes? d))
    (failSoftly "Error updating state" x.text)

def truncateJob (x : Manager σ) : Job (World σ) :=
  fileJob x.location (fun held l d => done (StateFile.write held l (some ByteArray.empty) d))
    (failSoftly "Failed to initialise state" x.text)

def stateValue : Option Json → Value
  | some j => .ofJson j
  | none => .null

def readJob (x : Manager σ) : Job (World σ) :=
  fileJob x.location
    (fun held l d =>
      let (result, d) := StateFile.read held l d
      (result.map stateValue, d))
    fun result w => (result, w)

def deleteJob (x : Manager σ) : Job (World σ) :=
  fileJob x.location
    (fun held l d =>
      let (result, d) := StateFile.delete held l d
      (result.map .bool, d))
    fun result w => (result, w)

/-! ## Starting and finishing -/

def enqueue (r : Registry σ) (m : Nat) (x : Manager σ) (call : Nat) (j : Job (World σ))
    (sequel : Sequel) : Registry σ :=
  r.withManager m { x with
    queue := x.queue.enqueue j, callers := x.callers ++ [⟨call, x.queue.issued, sequel⟩] }

/-- The document of a value, or why there is none. -/
def document (v : Value) : Except Fault Json :=
  match v.plain? with
  | none => .error .unserializable
  | some j =>
    if Json.documentLimit < j.nesting then .error (.overflow .writing)
    else if j.isWritable then .ok j
    else .error .noNumeral

/-- What is answered when a value cannot be written. -/
def refused (f : Fault) : Except Fault Value := if f.family == .value then .ok (.bool false) else .error f

def reportRefused (r : Registry σ) (x : Manager σ) (f : Fault) : Registry σ :=
  if f.family == .value then r.report x "State is not JSON serializable" else r

/-- A value that cannot be written is refused at once. -/
def startUpdate (r : Registry σ) (m : Nat) (x : Manager σ) (call : Nat) (v : Value) : Registry σ :=
  match document v with
  | .ok j => r.enqueue m x call (writeJob x j) .answer
  | .error f => (r.reportRefused x f).answer call (refused f)

def start (r : Registry σ) (m call : Nat) (c : Call σ) : Registry σ :=
  match r.managers[m]? with
  | none => r
  | some x =>
    match c with
    | .update v => r.startUpdate m x call v
    | .read => r.enqueue m x call (readJob x) .answer
    | .delete => r.enqueue m x call (deleteJob x) .forget
    | .init v => r.enqueue m x call (truncateJob x) ((v.map Sequel.write).getD .answer)
    | .custom j => r.enqueue m x call j .answer

def cancel (r : Registry σ) (m call : Nat) : Registry σ :=
  match r.managers[m]? with
  | none => r
  | some x =>
    match x.callers.find? (·.call == call) with
    | none => r
    | some c =>
      (r.withManager m { x with
        queue := x.queue.cancel c.ticket
        callers := x.callers.filter (·.call != call) }).answer call (.error .cancelled)

def resume (r : Registry σ) (m : Nat) (x : Manager σ) (c : Caller) (result : Except Fault Value) :
    Registry σ :=
  match c.sequel, result with
  | .answer, result => r.answer c.call result
  | .forget, .error f => r.answer c.call (.error f)
  -- whoever is still in the queue keeps the manager
  | .forget, .ok v => (if x.queue.isIdle then r.forget m else r).answer c.call (.ok v)
  | .write v, .ok made =>
    if made.truth then r.startUpdate m x c.call v else r.answer c.call (.ok made)
  | .write _, .error f => r.answer c.call (.error f)

/-- One step of a manager: those whose operations are settled are resumed before the work on the queue
goes on. -/
def hop (r : Registry σ) (m : Nat) : Registry σ :=
  match r.managers[m]? with
  | none => r
  | some x =>
    match x.queue.settled with
    | (ticket, result) :: rest =>
      let y := { x with queue := { x.queue with settled := rest } }
      match x.callers.find? (·.ticket == ticket) with
      | none => r.withManager m y
      | some c =>
        let y := { y with callers := y.callers.filter (·.ticket != ticket) }
        (r.withManager m y).resume m y c result
    | [] =>
      let (q, w) := x.queue.tick 0 r.world
      { r.withManager m { x with queue := q } with world := w }

def isAtRest (x : Manager σ) : Bool := x.queue.isIdle && x.queue.settled.isEmpty

/-- A bound on the number of steps until a manager is at rest. A caller takes one step when it is resumed,
and up to three more for a value that it writes then. -/
def effort (x : Manager σ) : Nat := x.queue.effort + 3 * x.callers.length + x.queue.settled.length

def settleFor : Nat → Nat → Registry σ → Registry σ
  | 0, _, r => r
  | n + 1, m, r =>
    match r.managers[m]? with
    | none => r
    | some x => if isAtRest x then r else settleFor n m (r.hop m)

def settle (r : Registry σ) (m : Nat) : Registry σ :=
  match r.managers[m]? with
  | none => r
  | some x => settleFor (effort x) m r

def perform (r : Registry σ) (m call : Nat) (c : Call σ) : Registry σ := (r.start m call c).settle m

end Registry

end Boardwalk
