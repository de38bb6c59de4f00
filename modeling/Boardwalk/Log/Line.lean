import Boardwalk.Fault
import Boardwalk.Json.Printer
import Boardwalk.Log.Cause
import Boardwalk.Log.Entry
import Boardwalk.Log.Instant
import Boardwalk.Log.Message
/-!
# Log lines

Every log entry is one line of Json. The names of the board and of the session stand at the top, where a
filter finds them; the other named values stand below a key of their own. Names that a log entry uses for
itself and names that begin with an underscore are left out.
-/

namespace Boardwalk

mutual

/-- A value in a log line. What Json cannot hold is given as text. -/
def Value.inLine : Value → Json
  | .null => .null
  | .bool b => .bool b
  | .int n => .int n
  | .float x => .float x
  | .str s => .str s
  | .bytes b => .str (Value.bytes b).text
  | .list xs => .arr (Value.inLineItems xs)
  | .row xs => .arr (Value.inLineItems xs)
  | .dict fs => .obj (Value.inLineFields fs)
  | .record index name kind output completed frameIndex =>
    .str (Value.record index name kind output completed frameIndex).text
  | .foreign => .str Value.foreign.text

def Value.inLineItems : List Value → List Json
  | [] => []
  | x :: xs => Value.inLine x :: Value.inLineItems xs

def Value.inLineFields : List (String × Value) → List (String × Json)
  | [] => []
  | (k, x) :: fs => (k, Value.inLine x) :: Value.inLineFields fs

end

namespace Log

structure Line where
  time : Instant
  level : Value
  logger : Value
  message : String
  extras : List (String × Value)
  fault : Option String

def ownNames : List String :=
  ["name", "msg", "args", "levelname", "levelno", "pathname", "filename", "module", "exc_info",
    "exc_text", "stack_info", "lineno", "funcName", "created", "msecs", "relativeCreated", "thread",
    "threadName", "processName", "process", "message", "asctime", "taskName"]

def isExtra (name : String) : Bool := !ownNames.contains name && name.toList.head? != some '_'

def runNames : List String := ["storyboard", "session"]

namespace Line

def shownExtras (l : Line) : List (String × Value) := l.extras.filter fun e => isExtra e.1

def runFields (l : Line) : List (String × Json) :=
  runNames.filterMap fun n => (l.shownExtras.lookup n).map fun v => (n, v.inLine)

def otherFields (l : Line) : List (String × Json) :=
  (l.shownExtras.filter fun e => !runNames.contains e.1).map fun e => (e.1, e.2.inLine)

def body (l : Line) : List (String × Json) :=
  [("level", l.level.inLine), ("logger", l.logger.inLine)] ++ l.runFields ++
    [("message", .str l.message)] ++
    (if l.otherFields.isEmpty then [] else [("extra", .obj l.otherFields)]) ++
    (match l.fault with
      | some text => [("exception", .str text)]
      | none => [])

def toJson (l : Line) : Except TimeFault Json := do
  return .obj (("timestamp", .str (← l.time.text)) :: l.body)

def text (l : Line) : Except TimeFault String := l.toJson.map Json.line

end Line

structure Draft where
  created : Value
  level : Value
  logger : Value
  message : Value
  values : Value
  extras : List (String × Value)
  /-- The text of the fault that is reported, unless a cause is given. -/
  fault : Option String
  cause : Value

inductive LineFault where
  | time (f : TimeFault)
  | message (f : MessageFault)
  | cause (f : CauseFault)
  | written (f : Fault)

/-- The text of a line, unless its values are nested too deep or hold a number without a numeral. -/
def lineText (j : Json) : Except Fault String :=
  if Json.depthLimit < j.nesting then .error (.overflow .writingLine)
  else if j.isWritable then .ok j.line
  else .error .noNumeral

namespace Draft

def line (d : Draft) (time : Instant) (message : String) (fault : Option String) : Line :=
  ⟨time, d.level, d.logger, message, d.extras, fault⟩

def faultText (d : Draft) : Except CauseFault (Option String) :=
  match d.fault with
  | some text => .ok (some text)
  | none => Cause.text? d.cause

def text (d : Draft) : Except LineFault String :=
  match Instant.ofValue d.created with
  | .error f => .error (.time f)
  | .ok time =>
    match time.text with
    | .error f => .error (.time f)
    | .ok _ =>
      match messageText d.message d.values with
      | .error f => .error (.message f)
      | .ok message =>
        match d.faultText with
        | .error f => .error (.cause f)
        | .ok fault =>
          match (d.line time message fault).toJson with
          | .error f => .error (.time f)
          | .ok j => (lineText j).mapError .written

end Draft

def Entry.line (time : Instant) (e : Entry) : Line :=
  ⟨time, .str (levelName e.level), .str e.logger, e.message, e.extras, e.fault⟩

end Log

end Boardwalk
