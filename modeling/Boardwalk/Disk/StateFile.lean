import Boardwalk.Disk.Way
import Boardwalk.Json.Parser
import Boardwalk.Json.Printer
/-!
# State files

The file that holds the state of a session, in Json. Every operation first makes the directories above the
file and takes the lock beside it; a lock that somebody else holds makes the operation fail. A text is encoded only
after the file was opened for it, and so emptied.
-/

namespace Boardwalk.StateFile

def lockName (l : Location) : String :=
  match l.way.getLast? with
  | some n => n ++ ".lock"
  | none => if l.root.isEmpty then "..lock" else ".lock"

def lockLocation (l : Location) : Location := l.parent.child (lockName l)

/-- Takes the lock on a file in a directory; the file that stands for the lock is made unless it is there, and
stays behind. -/
def takeLock (held : List Place) (dir : Place) (l : Location) (d : Disk) : Except Fault Disk :=
  let lock := dir ++ [lockName l]
  match (lockLocation l).check, d.touch lock with
  | .error f, _ => .error (.disk f)
  | .ok _, .error f => .error (.disk f)
  | .ok _, .ok d => if held.contains lock then .error .lockTimeout else .ok d

def placeIn (dir : Place) (l : Location) : Place :=
  match l.way.getLast? with
  | some n => dir.enter n
  | none => dir

def locked {α : Type} (held : List Place) (l : Location)
    (op : Place → Disk → Except Fault α × Disk) (d : Disk) : Except Fault α × Disk :=
  match d.makeDirs l.parent with
  | (.error f, d) => (.error (.disk f), d)
  | (.ok dir, d) =>
    match takeLock held dir l d with
    | .error f => (.error f, d)
    | .ok d => op (placeIn dir l) d

/-- Writes the bytes of a text over a file. A text that has none leaves the file empty. -/
def overwrite (bytes? : Option ByteArray) (p : Place) (d : Disk) : Except Fault Unit × Disk :=
  match d.write p ByteArray.empty, bytes? with
  | .error f, _ => (.error (.disk f), d)
  | .ok emptied, none => (.error .unencodable, emptied)
  | .ok emptied, some c => (.ok (), emptied.put p (.file c))

/-- The state that a text holds. A blank text holds none, and neither does null. -/
def stateOf (text : String) : Except Fault (Option Json) :=
  if Text.isBlankText text then .ok none
  else match Json.parse text with
    | .ok .null => .ok none
    | .ok j => .ok (some j)
    | .error .malformed => .error .badJson
    | .error (.tooDeep c) => .error (.overflow (.reading c))
    | .error (.longNumeral n) => .error (.numeral (.tooLong n) text)

def stateOfBytes (c : ByteArray) : Except Fault (Option Json) :=
  match String.fromUTF8? c with
  | some text => stateOf text
  | none => .error .undecodable

def readState (p : Place) (d : Disk) : Except Fault (Option Json) × Disk :=
  if d.exists? p then
    match d.read p with
    | .error f => (.error (.disk f), d)
    | .ok c => (stateOfBytes c, d)
  else (.ok none, d)

def removeState (p : Place) (d : Disk) : Except Fault Bool × Disk :=
  if d.exists? p then
    match d.remove p with
    | .ok d' => (.ok true, d')
    | .error f => (.error (.disk f), d)
  else (.ok false, d)

def read (held : List Place) (l : Location) (d : Disk) : Except Fault (Option Json) × Disk :=
  locked held l readState d

def write (held : List Place) (l : Location) (bytes? : Option ByteArray) (d : Disk) : Except Fault Unit × Disk :=
  locked held l (overwrite bytes?) d

def delete (held : List Place) (l : Location) (d : Disk) : Except Fault Bool × Disk :=
  locked held l removeState d

end Boardwalk.StateFile
