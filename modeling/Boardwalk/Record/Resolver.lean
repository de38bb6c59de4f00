import Boardwalk.Record.Timeline
/-!
# Outcomes of a journal

What a finished journal amounts to: the output of every frame that did work, or only the last of them.
-/

namespace Boardwalk

/-- Work frames are those whose output somebody may want: skipped, stop and jump frames are not. -/
def workKinds : List String := ["key_frame", "loop_frame", "story_frame"]

def Record.isWork (r : Record) : Bool := r.isCompleted && workKinds.contains r.kind

namespace Timeline

/-- Name and output of every completed work frame; a later run of a name replaces the output. -/
def outputs (t : Timeline) : List (String × Value) :=
  (t.filter Record.isWork).foldl (fun o r => Json.put r.name r.output o) []

def lastOutput (t : Timeline) : Except Fault Value :=
  match t.reverse.find? Record.isWork with
  | some r => .ok r.output
  | none => .error .noOutput

end Timeline

end Boardwalk
