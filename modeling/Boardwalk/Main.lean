import Boardwalk.Command.Run
import Boardwalk.Log.Line
import Std.Time.DateTime
/-!
# The program

Reads what the command line needs from the disk, runs it, and carries out the changes.
-/

namespace Boardwalk.Program

/-! ## Before the run -/

def readEnvironment : IO (List (String × String)) := do
  let names := Settings.fieldNames.map Settings.variablePrefixed
  (names.map Text.upper ++ names).filterMapM fun name => do
    return (← IO.getEnv name).map fun v => (name, v)

def textOf (p : Place) : String :=
  match p with
  | "/" :: names => "/" ++ "/".intercalate names
  | names => "/".intercalate names

def readNode (d : Disk) (p : Place) : IO Disk := do
  let path := (← IO.currentDir) / textOf p
  if ← path.isDir then return d.put p .dir
  else if ← path.pathExists then return d.put p (.file (← IO.FS.readBinFile path))
  else return d

def readDirectory (d : Disk) (l : Location) : IO Disk := do
  let d ← (List.range (l.names.length + 1)).foldlM
    (fun d n => readNode d ({ l with names := l.names.take n } : Location).place) d
  let p := l.place
  if d.isDir p then
    let found ← ((← IO.currentDir) / textOf p).readDir
    found.foldlM (fun d e => readNode d (p ++ [e.fileName])) d
  else return d

def isHeld (lock : Place) : IO Bool := do
  let path := (← IO.currentDir) / textOf lock
  if ← path.pathExists then
    let h ← IO.FS.Handle.mk path .readWrite
    let isFree ← h.tryLock
    if isFree then h.unlock
    return !isFree
  else return false

def readWorld (arguments : List String) (environment : List (String × String)) :
    IO (World Unit) := do
  let d ← readNode Disk.empty Settings.variablesPlace
  let d ← match Command.directory? arguments environment d with
    | some l => readDirectory d l
    | none => pure d
  let locks := d.nodes.map fun n => n.1.dropLast ++ [StateFile.lockName (Location.ofPlace n.1)]
  let held ← locks.filterM isHeld
  return ⟨toString (← IO.currentDir), d, held, [], [], ()⟩

/-! ## After the run -/

def writeNode (d : Disk) (p : Place) (n : Node) : IO Unit := do
  let path := (← IO.currentDir) / textOf p
  match n, d.node? p with
  | .dir, none => IO.FS.createDir path
  | .dir, some _ => return
  | .file c, some (.file old) => if c != old then IO.FS.writeBinFile path c
  | .file c, _ => IO.FS.writeBinFile path c

/-- Makes what is new, the parents first, and removes what is gone. -/
def carryOut (before after : Disk) : IO Unit := do
  for (p, n) in after.nodes.reverse do
    writeNode before p n
  for (p, _) in before.nodes do
    if !after.exists? p then IO.FS.removeFile ((← IO.currentDir) / textOf p)

/-! ## Printing -/

def seen (s : String) : String := (Console.marked s).toOption.getD s

def widthOf (rows : List (List String)) (column : Nat) : Nat :=
  (rows.map fun r => ((r[column]?).getD "").length).foldl max 0

def pad (width : Nat) (s : String) : String := s ++ "".pushn ' ' (width - s.length)

def print : Command.Printed → IO Unit
  | .text s _ => IO.println (seen s)
  | .json s => IO.println s
  | .table title columns rows => do
    IO.println (seen title)
    let rows := columns :: rows.map fun r => r.map seen
    for r in rows do
      IO.println ("  ".intercalate (r.mapIdx fun i s => pad (widthOf rows i) s))

def now : IO Log.Instant := do
  let t := (← Std.Time.Timestamp.now).toNanosecondsSinceUnixEpoch.toInt
  return ⟨t / 1000000000, (t % 1000000000 / 1000).toNat⟩

def printEntry (e : Log.Entry) : IO Unit := do
  match (e.line (← now)).text with
  | .ok s => IO.eprintln s
  | .error _ => return

def printExit : Command.Exit → IO Unit
  | .stopped .help => IO.println
      "usage: storyboard [--sessions-path DIR] sessions (list | show NAME | clear NAME) [--parent NAME]"
  | .stopped .version => IO.println Command.versionText
  | .misconfigured issues => do
    IO.eprintln Command.misconfiguredText
    for i in issues do
      IO.eprintln ("  " ++ ".".intercalate (i.path.map fun
        | .field n => n
        | .item n => toString n) ++ ": " ++ i.kind)
  | .raised f => IO.eprintln (f.message?.getD "")
  | e => match e.notice? with
    | some s => IO.eprintln s
    | none => return

def run (arguments : List String) : IO UInt32 := do
  let environment ← readEnvironment
  let w ← readWorld arguments environment
  let r := Command.run Console.marked arguments environment w
  carryOut w.disk r.world.disk
  printExit r.exit
  r.printed.forM print
  r.shownLog.forM printEntry
  return UInt32.ofNat (r.exit.code?.getD 1)

end Boardwalk.Program

def main (arguments : List String) : IO UInt32 := Boardwalk.Program.run arguments
