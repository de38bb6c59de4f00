import Boardwalk.Record.Target
import Boardwalk.Record.Timeline
/-!
# Views

What the code of a frame sees: the whole journal, and the position of the frame. Look-ups find the latest
record, also one of an earlier visit to a frame that a jump revisits.
-/

namespace Boardwalk

def emptyKind : String := "empty_frame"

structure View where
  records : Timeline
  current : Int

namespace View

def latest? (v : View) (p : Record → Bool) : Option Record := v.records.reverse.find? p

def record? (v : View) (target : Target) : Except Fault (Option Record) := do
  match ← target.settle with
  | .position n => return v.latest? fun r => r.frameIndex.wholeNumber? == some n
  | .name s => return v.latest? fun r => r.name == s

/-- A record for the place before the first one and past the last one. -/
def blank (position : Int) : Record :=
  ⟨.int position, "", emptyKind, .dict [], .bool true, .null⟩

/-- The latest record of the step journaled just before the current frame. -/
def previous (v : View) : Record :=
  let position := v.current - 1
  if 0 ≤ position then
    match v.records[position.toNat]? with
    | some r => (v.latest? fun s => s.name == r.name).getD r
    | none => blank position
  else blank position

end View

end Boardwalk
