import Boardwalk.Record.Basic
/-!
# Timelines

The journal of a session: records in the order in which the steps were taken. Records are added at the end;
an edit merges into one record in place.
-/

namespace Boardwalk

abbrev Timeline := List Record

namespace Timeline

/-- A new record for the end of the journal, read from the values given for its fields. -/
def entry? (t : Timeline) (name : Value) (kind : String) (frameIndex output completed : Value) :
    Except Fault Record :=
  (Record.checkFields [("index", .int t.length), ("name", name), ("type", .str kind),
    ("output", output), ("frame_index", frameIndex), ("completed", completed)]).toExcept

def entry (t : Timeline) (name kind : String) (frameIndex : Int) (output : Value)
    (completed : Bool) : Record :=
  ⟨.int t.length, name, kind, output, .bool completed, .int frameIndex⟩

/-- The fields of an edit: the second spelling of the frame position is folded into the first, a later
field wins over an earlier one, and fields without a value are left out. -/
def editOf (fields : List (String × Value)) : List (String × Value) :=
  (fields.foldl (fun e f => Json.put (if f.1 = "frameIndex" then "frame_index" else f.1) f.2 e)
    []).filter fun f => !f.2.isNull

def editOfRecord (r : Record) : List (String × Value) :=
  editOf [("index", r.index), ("name", .str r.name), ("type", .str r.kind), ("output", r.output),
    ("completed", r.completed), ("frame_index", r.frameIndex)]

def editIndex? (t : Timeline) (edit : List (String × Value)) : Option Nat := do
  let n ← (← edit.lookup "index").wholeNumber?
  if 0 ≤ n && n < t.length then some n.toNat else none

def keeps (edit : List (String × Value)) (field stored : String) : Bool :=
  match edit.lookup field with
  | none => true
  | some (.str s) => s == stored
  | some _ => false

def merge (edit : List (String × Value)) (r : Record) : Record :=
  ⟨(edit.lookup "index").getD r.index, r.name, r.kind, (edit.lookup "output").getD r.output,
    (edit.lookup "completed").getD r.completed, (edit.lookup "frame_index").getD r.frameIndex⟩

/-- Merges an edit into the record it names. The name and the kind of a record never change. -/
def update (t : Timeline) (edit : List (String × Value)) : Except Fault (Timeline × Record) :=
  let index := (edit.lookup "index").getD .null
  match editIndex? t edit with
  | none => .error (.noRecord index)
  | some i =>
    match t[i]? with
    | none => .error (.noRecord index)
    | some stored =>
      if !keeps edit "name" stored.name then
        .error (.fixedField index "name" stored.name ((edit.lookup "name").getD .null))
      else if !keeps edit "type" stored.kind then
        .error (.fixedField index "type" stored.kind ((edit.lookup "type").getD .null))
      else
        let merged := merge edit stored
        .ok (t.set i merged, merged)

/-- A bound of a cut: negative ones count from the end, and all are moved into the list. -/
def bound (length : Nat) (n : Int) : Nat :=
  if n < 0 then (n + length).toNat else min n.toNat length

def cut (t : Timeline) (start stop : Option Int) : Timeline :=
  let a := (start.map (bound t.length)).getD 0
  let b := (stop.map (bound t.length)).getD t.length
  (t.take b).drop a

/-- Where a run starts: after a completed last record, and at one still in flight. -/
def cursorAfter : Option Record → Value
  | none => .int 0
  | some r => if r.isCompleted then .int (r.position + 1) else r.index

def cursor (t : Timeline) : Int := (cursorAfter t.getLast?).wholeNumber?.getD 0

end Timeline

end Boardwalk
