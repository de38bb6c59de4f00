import Boardwalk.Record.Schema
/-!
# Journal records

One journaled step of a board. `index` is the record's position in its journal, `frameIndex` the position
of the frame that produced it; the two part as soon as a jump revisits an earlier frame.
-/

namespace Boardwalk

structure Record where
  index : Value
  name : String
  kind : String
  output : Value
  completed : Value
  frameIndex : Value
  deriving Inhabited

namespace Record

def toValue (r : Record) : Value :=
  .record r.index r.name r.kind r.output r.completed r.frameIndex

/-- The Json form in the journal. The record is a container around its output. -/
def normal (r : Record) : Except DumpFault Json := r.toValue.form >>= Value.bounded (Value.dumpLimit + 1)

theorem normal_iff {r : Record} {j : Json} :
    r.normal = .ok j ↔ r.toValue.form = .ok j ∧ j.nesting ≤ Value.dumpLimit + 1 := Value.bind_bounded_iff

/-- What the schema accepts: whole numbers for the positions, a truth value for the completion. -/
structure IsValid (r : Record) : Prop where
  index : ∃ n, r.index = .int n
  completed : ∃ b, r.completed = .bool b
  frameIndex : r.frameIndex = .null ∨ ∃ n, r.frameIndex = .int n

def position (r : Record) : Int := r.index.wholeNumber?.getD 0

def isCompleted (r : Record) : Bool := r.completed.truth

/-- The field that a position may be given under, with the name that a defect of it is reported at. -/
def frameIndexField (fields : List (String × Value)) : String :=
  if (fields.lookup "frameIndex").isNone && (fields.lookup "frame_index").isSome then "frame_index"
  else "frameIndex"

def nullOr (read : Value → Schema.Reading Int) (v : Value) : Schema.Reading Value :=
  match v with
  | .null => .ok .null
  | v => (read v).map .int

def checkFields (fields : List (String × Value)) : Schema.Checked Record :=
  ((Schema.required Schema.whole "index" fields).both
    ((Schema.required Schema.text "name" fields).both
      ((Schema.required Schema.text "type" fields).both
        ((Schema.optional Except.ok "output" .null fields).both
          ((Schema.optional Schema.truth "completed" true fields).both
            ((Schema.optional (nullOr Schema.whole) (frameIndexField fields) .null fields))))))).map
    fun (index, name, kind, output, completed, frameIndex) =>
      ⟨.int index, name, kind, output, .bool completed, frameIndex⟩

def check : Value → Schema.Checked Record
  | .dict fields => checkFields fields
  | .record index name kind output completed frameIndex =>
    .good ⟨index, name, kind, output, completed, frameIndex⟩
  | _ => .bad [⟨[], "model_type"⟩]

end Record

end Boardwalk
